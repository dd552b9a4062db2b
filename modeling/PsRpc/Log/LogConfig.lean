import PsRpc.Library.Scan
import PsRpc.Library.Table
import PsRpc.Wire.Message

/-! # The log levels of the submodules

`LogConfigParser` reads the text of `MS_SUBMODULE_LOG_v` with a lexer that skips blanks and tabs.
The lexer is the text from its index on. A parser that has read the closing brace does not look at
what follows.
-/

namespace PsRpc

open Scan

/-- `var` is `VARIABLE`. -/
inductive LogConfigToken where
  | invalid
  | leftBrace
  | rightBrace
  | var
  | number
  | comma
  | colon
  | eos
deriving DecidableEq, Repr

namespace LogConfigToken

def name : LogConfigToken → String
  | invalid => "invalid"
  | leftBrace => "\x7b"
  | rightBrace => "\x7d"
  | var => "variable"
  | number => "number"
  | comma => ","
  | colon => ":"
  | eos => "end-of-string"

end LogConfigToken

namespace LogConfig

def isAlpha (ch : Char) : Bool := ('A' ≤ ch && ch ≤ 'Z') || ('a' ≤ ch && ch ≤ 'z')

def isDigit (ch : Char) : Bool := '0' ≤ ch && ch ≤ '9'

def isWord (ch : Char) : Bool := isAlpha ch || isDigit ch || ch = '_'

def isBlank (ch : Char) : Bool := ch = ' ' || ch = '\t'

def singleCharMap : Char → Option LogConfigToken
  | '\x7b' => some .leftBrace
  | '\x7d' => some .rightBrace
  | ',' => some .comma
  | ':' => some .colon
  | '\x00' => some .eos
  | _ => none

/-- The next token, its text and the text behind it. At the end of the text `SkipWhiteSpace` returns
the character zero. An invalid character is not passed over, and no text is given out for it. -/
def getNext (text : List Char) : LogConfigToken × List Char × List Char :=
  match text.dropWhile isBlank with
  | [] => (.eos, ['\x00'], [])
  | ch :: rest =>
    match singleCharMap ch with
    | some tok => (tok, [ch], rest)
    | none =>
      if isAlpha ch then (.var, ch :: rest.takeWhile isWord, rest.dropWhile isWord)
      else if isDigit ch then (.number, ch :: rest.takeWhile isDigit, rest.dropWhile isDigit)
      else (.invalid, [], ch :: rest)

/-- The warning of `Expect`, if it returns false. -/
def expect (expected tok : LogConfigToken) : Option String :=
  if expected ≠ tok then
    some ("Parse submodule log configuration text error, expect `" ++ expected.name ++
      "`, but got `" ++ tok.name ++ "`. The whole configuration will be ignored.")
  else none

/-- `GetNext` and `Expect`, with the warning as the error. -/
def expectNext (expected : LogConfigToken) (text : List Char) :
    Except String (List Char × List Char) :=
  let (tok, value, rest) := getNext text
  match expect expected tok with
  | some warning => .error warning
  | none => .ok (value, rest)

abbrev Levels := Table (List Char) (List Char)

/-- One turn of the `do` loop: the key, the value, the token behind them and the text behind that
token. An error is `flag_error` with its warning. -/
def parsePair (text : List Char) :
    Except String (List Char × List Char × LogConfigToken × List Char) := do
  let (key, text) ← expectNext .var text
  let (_, text) ← expectNext .colon text
  let (val, text) ← expectNext .number text
  let (tok, _, text) := getNext text
  .ok (key, val, tok, text)

/-- The loop. Every turn takes characters, so there are fewer turns than characters. -/
def parsePairs : Nat → Levels → List Char → Except String (LogConfigToken × Levels × List Char)
  | 0, _, _ => .error ""
  | turns + 1, levels, text => do
    let (key, val, tok, text) ← parsePair text
    let levels := levels.insert key val
    if tok = .comma then parsePairs turns levels text else .ok (tok, levels, text)

/-- `Parse` of a text that is not empty, up to the clearing of the levels. -/
def parseText (text : List Char) : Except String (Levels × List Char) := do
  let (_, text) ← expectNext .leftBrace text
  let (tok, levels, text) ← parsePairs (text.length + 1) ∅ text
  match expect .rightBrace tok with
  | some warning => .error warning
  | none => .ok (levels, text)

def parse (text : List Char) : Levels × Option String :=
  if (getNext text).1 = .eos then (∅, none)
  else
    match parseText text with
    | .ok (levels, _) => (levels, none)
    | .error warning => (∅, some warning)

/-! ## The documented form -/

def IsBlanks (text : List Char) : Prop := ∀ ch ∈ text, isBlank ch = true

def IsName (text : List Char) : Prop :=
  ∃ first rest, text = first :: rest ∧ isAlpha first = true ∧ ∀ ch ∈ rest, isWord ch = true

def IsNumber (text : List Char) : Prop :=
  ∃ first rest, text = first :: rest ∧ isDigit first = true ∧ ∀ ch ∈ rest, isDigit ch = true

def PairText (text name number : List Char) : Prop :=
  ∃ b₁ b₂ b₃ b₄, IsBlanks b₁ ∧ IsBlanks b₂ ∧ IsBlanks b₃ ∧ IsBlanks b₄ ∧ IsName name ∧
    IsNumber number ∧ text = b₁ ++ (name ++ (b₂ ++ ':' :: (b₃ ++ (number ++ b₄))))

/-- Pairs with commas between them, and the closing brace. -/
inductive Pairs : List Char → List (List Char × List Char) → Prop where
  | last {text name number : List Char} (hPair : PairText text name number) :
    Pairs (text ++ ['\x7d']) [(name, number)]
  | more {text name number rest : List Char} {pairs : List (List Char × List Char)}
    (hPair : PairText text name number) (hRest : Pairs rest pairs) :
    Pairs (text ++ ',' :: rest) ((name, number) :: pairs)

/-- The documented form, up to the closing brace. -/
def Braced (text : List Char) (pairs : List (List Char × List Char)) : Prop :=
  ∃ blanks body, IsBlanks blanks ∧ text = blanks ++ '\x7b' :: body ∧ Pairs body pairs

/-- The whole text has the documented form. -/
def Documented (text : List Char) (pairs : List (List Char × List Char)) : Prop :=
  ∃ braced blanks, text = braced ++ blanks ∧ Braced braced pairs ∧ IsBlanks blanks

def lastNumber (pairs : List (List Char × List Char)) (name : List Char) : Option (List Char) :=
  (pairs.filter (·.1 = name)).getLast?.map Prod.snd

/-! ## The lexer -/

def continues : LogConfigToken → Char → Bool
  | .var => isWord
  | .number => isDigit
  | _ => fun _ => false

def TokenText : LogConfigToken → List Char → Prop
  | .var, text => IsName text
  | .number, text => IsNumber text
  | tok, text => ∃ ch, text = [ch] ∧ singleCharMap ch = some tok

theorem singleCharMap_spec {ch : Char} {tok : LogConfigToken} (h : singleCharMap ch = some tok) :
    isBlank ch = false ∧ isAlpha ch = false ∧ isDigit ch = false ∧ tok ≠ .var ∧ tok ≠ .number := by
  unfold singleCharMap at h
  split at h <;> cases h <;> decide

theorem singleCharMap_injective {ch other : Char} {tok : LogConfigToken}
    (h : singleCharMap ch = some tok) (hOther : singleCharMap other = some tok) : ch = other := by
  unfold singleCharMap at h hOther
  split at h <;> cases h <;> split at hOther <;> cases hOther <;> rfl

theorem singleCharMap_eq_none {ch : Char} (h : isAlpha ch = true ∨ isDigit ch = true) :
    singleCharMap ch = none := by
  cases hSingle : singleCharMap ch with
  | none => rfl
  | some tok =>
    obtain ⟨_, hAlpha, hDigit, _⟩ := singleCharMap_spec hSingle
    simp [hAlpha, hDigit] at h

theorem isAlpha_of_isDigit {ch : Char} (h : isDigit ch = true) : isAlpha ch = false := by
  have hDigit : 48 ≤ ch.toNat ∧ ch.toNat ≤ 57 := by
    simpa [isDigit, Char.le_def, UInt32.le_iff_toNat_le] using h
  have hAlpha : ¬(65 ≤ ch.toNat ∧ ch.toNat ≤ 90 ∨ 97 ≤ ch.toNat ∧ ch.toNat ≤ 122) := by omega
  simpa [isAlpha, Char.le_def, UInt32.le_iff_toNat_le] using hAlpha

theorem isBlank_eq_true_iff {ch : Char} : isBlank ch = true ↔ ch = ' ' ∨ ch = '\t' := by
  simp [isBlank]

theorem IsBlanks.not {p : Char → Bool} {blanks : List Char} (h : IsBlanks blanks)
    (hSpace : p ' ' = false) (hTab : p '\t' = false) : ∀ ch ∈ blanks, p ch = false := by
  intro ch hMem
  rcases isBlank_eq_true_iff.mp (h ch hMem) with rfl | rfl
  · exact hSpace
  · exact hTab

/-- What the lexer reads: blanks, the text of a token and a rest in which it does not go on. -/
def Reads (tok : LogConfigToken) (text value rest : List Char) : Prop :=
  ∃ blanks, IsBlanks blanks ∧ text = blanks ++ (value ++ rest) ∧ TokenText tok value ∧
    Stops (continues tok) rest

theorem tokenText_single {ch : Char} {tok : LogConfigToken} (h : singleCharMap ch = some tok) :
    TokenText tok [ch] ∧ continues tok = fun _ => false := by
  obtain ⟨_, _, _, hVar, hNumber⟩ := singleCharMap_spec h
  cases tok with
  | var => exact absurd rfl hVar
  | number => exact absurd rfl hNumber
  | invalid | leftBrace | rightBrace | comma | colon | eos => exact ⟨⟨ch, rfl, h⟩, rfl⟩

theorem isBlank_eq_false {ch : Char} (h : isAlpha ch = true ∨ isDigit ch = true) :
    isBlank ch = false := by
  rw [← Bool.not_eq_true, isBlank_eq_true_iff]
  rintro (rfl | rfl) <;> revert h <;> decide

theorem getNext_of_reads {tok : LogConfigToken} {text value rest : List Char}
    (h : Reads tok text value rest) : getNext text = (tok, value, rest) := by
  obtain ⟨blanks, hBlanks, rfl, hToken, hStops⟩ := h
  cases tok with
  | var =>
    obtain ⟨first, more, rfl, hFirst, hMore⟩ := hToken
    have hDrop : (blanks ++ (first :: more ++ rest)).dropWhile isBlank = first :: (more ++ rest) :=
      dropWhile_run hBlanks (stops_cons.mpr (isBlank_eq_false (.inl hFirst)))
    rw [getNext, hDrop]
    dsimp only
    rw [singleCharMap_eq_none (.inl hFirst)]
    dsimp only
    rw [if_pos hFirst, takeWhile_run hMore hStops, dropWhile_run hMore hStops]
  | number =>
    obtain ⟨first, more, rfl, hFirst, hMore⟩ := hToken
    have hDrop : (blanks ++ (first :: more ++ rest)).dropWhile isBlank = first :: (more ++ rest) :=
      dropWhile_run hBlanks (stops_cons.mpr (isBlank_eq_false (.inr hFirst)))
    rw [getNext, hDrop]
    dsimp only
    rw [singleCharMap_eq_none (.inr hFirst)]
    dsimp only
    rw [if_neg (by simp [isAlpha_of_isDigit hFirst]), if_pos hFirst, takeWhile_run hMore hStops,
      dropWhile_run hMore hStops]
  | invalid | leftBrace | rightBrace | comma | colon | eos =>
    obtain ⟨ch, rfl, hSingle⟩ := hToken
    have hDrop : (blanks ++ ([ch] ++ rest)).dropWhile isBlank = ch :: rest :=
      dropWhile_run hBlanks (stops_cons.mpr (singleCharMap_spec hSingle).1)
    rw [getNext, hDrop]
    dsimp only
    rw [hSingle]

theorem reads_of_getNext {tok : LogConfigToken} {text value rest : List Char}
    (hTok : tok ≠ .invalid ∧ tok ≠ .eos) (h : getNext text = (tok, value, rest)) :
    Reads tok text value rest := by
  obtain ⟨blanks, following, rfl, hBlanks, hStops⟩ := exists_run isBlank text
  rw [getNext, dropWhile_run hBlanks hStops] at h
  cases following with
  | nil =>
    cases h
    exact absurd rfl hTok.2
  | cons ch following =>
    dsimp only at h
    split at h
    · next single hSingle =>
      cases h
      obtain ⟨hToken, hContinues⟩ := tokenText_single hSingle
      refine ⟨blanks, hBlanks, rfl, hToken, ?_⟩
      rw [hContinues]
      exact fun _ _ => rfl
    · split at h
      · next hAlpha =>
        cases h
        refine ⟨blanks, hBlanks, ?_, ⟨ch, _, rfl, hAlpha, fun _ => List.mem_takeWhile_imp⟩,
          stops_dropWhile _ _⟩
        rw [List.cons_append, List.takeWhile_append_dropWhile]
      · split at h
        · next hDigit =>
          cases h
          refine ⟨blanks, hBlanks, ?_, ⟨ch, _, rfl, hDigit, fun _ => List.mem_takeWhile_imp⟩,
            stops_dropWhile _ _⟩
          rw [List.cons_append, List.takeWhile_append_dropWhile]
        · cases h
          exact absurd rfl hTok.1

theorem expectNext_eq_ok_iff {tok : LogConfigToken} {text value rest : List Char} :
    expectNext tok text = .ok (value, rest) ↔ getNext text = (tok, value, rest) := by
  rw [expectNext]
  rcases getNext text with ⟨got, gotValue, gotRest⟩
  dsimp only
  by_cases hTok : tok = got
  · simp [expect, hTok]
  · simp [expect, hTok, Ne.symm hTok]

theorem expectNext_eq_ok {tok : LogConfigToken} {text value rest : List Char}
    (h : Reads tok text value rest) : expectNext tok text = .ok (value, rest) :=
  expectNext_eq_ok_iff.mpr (getNext_of_reads h)

theorem reads_of_expectNext {tok : LogConfigToken} {text value rest : List Char}
    (hTok : tok ≠ .invalid ∧ tok ≠ .eos) (h : expectNext tok text = .ok (value, rest)) :
    Reads tok text value rest :=
  reads_of_getNext hTok (expectNext_eq_ok_iff.mp h)

/-! ## One pair -/

theorem eq_colon_of_tokenText {value : List Char} (h : TokenText .colon value) : value = [':'] := by
  obtain ⟨ch, rfl, hSingle⟩ := h
  have hColon : ch = ':' := singleCharMap_injective hSingle rfl
  rw [hColon]

theorem parsePair_eq_ok {pair name number rest : List Char} {ch : Char} {tok : LogConfigToken}
    (hPair : PairText pair name number) (hSingle : singleCharMap ch = some tok)
    (hDigit : isDigit ch = false) :
    parsePair (pair ++ ch :: rest) = .ok (name, number, tok, rest) := by
  obtain ⟨b₁, b₂, b₃, b₄, hb₁, hb₂, hb₃, hb₄, hName, hNumber, rfl⟩ := hPair
  have hVar : expectNext .var
      (b₁ ++ (name ++ (b₂ ++ ':' :: (b₃ ++ (number ++ b₄)))) ++ ch :: rest) =
      .ok (name, b₂ ++ ':' :: (b₃ ++ (number ++ (b₄ ++ ch :: rest)))) :=
    expectNext_eq_ok ⟨b₁, hb₁, by simp, hName, stops_append (hb₂.not rfl rfl) rfl⟩
  have hColon : expectNext .colon (b₂ ++ ':' :: (b₃ ++ (number ++ (b₄ ++ ch :: rest)))) =
      .ok ([':'], b₃ ++ (number ++ (b₄ ++ ch :: rest))) :=
    expectNext_eq_ok ⟨b₂, hb₂, rfl, ⟨':', rfl, rfl⟩, fun _ _ => rfl⟩
  have hVal : expectNext .number (b₃ ++ (number ++ (b₄ ++ ch :: rest))) =
      .ok (number, b₄ ++ ch :: rest) :=
    expectNext_eq_ok ⟨b₃, hb₃, rfl, hNumber, stops_append (hb₄.not rfl rfl) hDigit⟩
  obtain ⟨hToken, hContinues⟩ := tokenText_single hSingle
  have hNext : getNext (b₄ ++ ch :: rest) = (tok, [ch], rest) :=
    getNext_of_reads ⟨b₄, hb₄, rfl, hToken, by rw [hContinues]; exact fun _ _ => rfl⟩
  simp only [parsePair, bind, Except.bind, hVar, hColon, hVal, hNext]

theorem pairText_of_parsePair {text name number rest : List Char} {tok : LogConfigToken}
    (hTok : tok = .comma ∨ tok = .rightBrace) (h : parsePair text = .ok (name, number, tok, rest)) :
    ∃ pair ch, text = pair ++ ch :: rest ∧ PairText pair name number ∧
      singleCharMap ch = some tok := by
  obtain ⟨⟨key, text₁⟩, hVar, hAfterKey⟩ := bind_eq_ok h
  obtain ⟨⟨colon, text₂⟩, hColon, hAfterColon⟩ := bind_eq_ok hAfterKey
  obtain ⟨⟨val, text₃⟩, hVal, hEnd⟩ := bind_eq_ok hAfterColon
  obtain ⟨b₁, hb₁, rfl, hName, _⟩ := reads_of_expectNext (by decide) hVar
  obtain ⟨b₂, hb₂, rfl, hText, _⟩ := reads_of_expectNext (by decide) hColon
  obtain ⟨b₃, hb₃, rfl, hNumber, _⟩ := reads_of_expectNext (by decide) hVal
  obtain rfl := eq_colon_of_tokenText hText
  rcases hNext : getNext text₃ with ⟨got, value, behind⟩
  dsimp only at hEnd
  rw [hNext] at hEnd
  simp only [Except.ok.injEq, Prod.mk.injEq] at hEnd
  obtain ⟨rfl, rfl, rfl, rfl⟩ := hEnd
  have hProper : got ≠ .invalid ∧ got ≠ .eos := by
    rcases hTok with rfl | rfl <;> decide
  obtain ⟨b₄, hb₄, rfl, hToken, _⟩ := reads_of_getNext hProper hNext
  have hSingle : ∃ ch, value = [ch] ∧ singleCharMap ch = some got := by
    rcases hTok with rfl | rfl <;> exact hToken
  obtain ⟨ch, rfl, hSingle⟩ := hSingle
  refine ⟨_, ch, ?_, ⟨b₁, b₂, b₃, b₄, hb₁, hb₂, hb₃, hb₄, hName, hNumber, rfl⟩, hSingle⟩
  simp

/-! ## All pairs -/

def assign (levels : Levels) (pairs : List (List Char × List Char)) : Levels :=
  pairs.foldl (fun levels pair => levels.insert pair.1 pair.2) levels

theorem Pairs.length_le {body : List Char} {pairs : List (List Char × List Char)}
    (h : Pairs body pairs) : pairs.length ≤ body.length := by
  induction h with
  | last => simp
  | more _ _ ih =>
    simp only [List.length_cons, List.length_append]
    omega

theorem parsePairs_eq_ok {body : List Char} {pairs : List (List Char × List Char)}
    (h : Pairs body pairs) {turns : Nat} (hTurns : pairs.length ≤ turns) (levels : Levels)
    (rest : List Char) :
    parsePairs turns levels (body ++ rest) = .ok (.rightBrace, assign levels pairs, rest) := by
  induction h generalizing turns levels with
  | @last text name number hPair =>
    obtain ⟨turns, rfl⟩ := Nat.exists_eq_add_of_le' hTurns
    have hTurn : parsePair (text ++ ['\x7d'] ++ rest) = .ok (name, number, .rightBrace, rest) := by
      rw [List.append_assoc]
      exact parsePair_eq_ok hPair rfl rfl
    simp only [List.length_singleton, parsePairs, hTurn]
    rfl
  | @more text name number body pairs hPair _ ih =>
    rw [List.length_cons] at hTurns
    obtain ⟨turns, rfl⟩ := Nat.exists_eq_add_of_le' hTurns
    have hTurn : parsePair (text ++ ',' :: body ++ rest) =
        .ok (name, number, .comma, body ++ rest) := by
      rw [List.append_assoc]
      exact parsePair_eq_ok hPair rfl rfl
    rw [← Nat.add_assoc, parsePairs, hTurn]
    exact ih (by omega) _

theorem pairs_of_parsePairs {turns : Nat} {levels levels' : Levels} {text rest : List Char}
    (h : parsePairs turns levels text = .ok (.rightBrace, levels', rest)) :
    ∃ body pairs, text = body ++ rest ∧ Pairs body pairs ∧ levels' = assign levels pairs := by
  induction turns generalizing levels text with
  | zero => cases h
  | succ turns ih =>
    obtain ⟨⟨name, number, tok, following⟩, hPair, hRest⟩ := bind_eq_ok h
    dsimp only at hRest
    split at hRest
    · next hTok =>
      obtain ⟨pair, ch, rfl, hText, hSingle⟩ := pairText_of_parsePair (.inl hTok) hPair
      obtain ⟨body, pairs, rfl, hPairs, rfl⟩ := ih hRest
      have hComma : ch = ',' := singleCharMap_injective hSingle (hTok ▸ rfl)
      refine ⟨pair ++ ch :: body, (name, number) :: pairs, by simp, ?_, rfl⟩
      rw [hComma]
      exact .more hText hPairs
    · cases hRest
      obtain ⟨pair, ch, rfl, hText, hSingle⟩ := pairText_of_parsePair (.inr rfl) hPair
      have hBrace : ch = '\x7d' := singleCharMap_injective hSingle rfl
      refine ⟨pair ++ [ch], [(name, number)], by simp, ?_, rfl⟩
      rw [hBrace]
      exact .last hText

/-! ## The whole text -/

theorem parseText_eq_ok {text : List Char} {pairs : List (List Char × List Char)}
    (h : Braced text pairs) (rest : List Char) :
    parseText (text ++ rest) = .ok (assign ∅ pairs, rest) := by
  obtain ⟨blanks, body, hBlanks, rfl, hPairs⟩ := h
  have hBrace : expectNext .leftBrace (blanks ++ '\x7b' :: body ++ rest) =
      .ok (['\x7b'], body ++ rest) :=
    expectNext_eq_ok ⟨blanks, hBlanks, by simp, ⟨'\x7b', rfl, rfl⟩, fun _ _ => rfl⟩
  have hTurns : pairs.length ≤ (body ++ rest).length + 1 := by
    have hLength := hPairs.length_le
    rw [List.length_append]
    omega
  have hLoop := parsePairs_eq_ok hPairs hTurns ∅ rest
  simp only [parseText, bind, Except.bind, hBrace, hLoop]
  rfl

theorem braced_of_parseText {text rest : List Char} {levels : Levels}
    (h : parseText text = .ok (levels, rest)) :
    ∃ braced pairs, text = braced ++ rest ∧ Braced braced pairs ∧ levels = assign ∅ pairs := by
  obtain ⟨⟨value, text₁⟩, hBrace, hRest⟩ := bind_eq_ok h
  obtain ⟨⟨tok, levels', text₂⟩, hLoop, hEnd⟩ := bind_eq_ok hRest
  obtain ⟨blanks, hBlanks, rfl, ⟨ch, rfl, hSingle⟩, _⟩ := reads_of_expectNext (by decide) hBrace
  have hTok : tok = .rightBrace := by
    dsimp only at hEnd
    split at hEnd
    · cases hEnd
    · next hNone => simpa [expect, eq_comm] using hNone
  subst hTok
  cases hEnd
  obtain ⟨body, pairs, rfl, hPairs, rfl⟩ := pairs_of_parsePairs hLoop
  have hLeft : ch = '\x7b' := singleCharMap_injective hSingle rfl
  refine ⟨blanks ++ '\x7b' :: body, pairs, ?_, ⟨blanks, body, hBlanks, rfl, hPairs⟩, rfl⟩
  rw [hLeft]
  simp

theorem parse_of_braced {text rest : List Char} {pairs : List (List Char × List Char)}
    (h : Braced text pairs) : (parse (text ++ rest)).1 = assign ∅ pairs := by
  have hText := parseText_eq_ok h rest
  obtain ⟨blanks, body, hBlanks, rfl, _⟩ := h
  have hFirst : getNext (blanks ++ '\x7b' :: body ++ rest) = (.leftBrace, ['\x7b'], body ++ rest) :=
    getNext_of_reads ⟨blanks, hBlanks, by simp, ⟨'\x7b', rfl, rfl⟩, fun _ _ => rfl⟩
  rw [parse, hFirst, if_neg (by simp), hText]

theorem braced_of_parse {text : List Char} (h : (parse text).1 ≠ ∅) :
    ∃ braced rest pairs, text = braced ++ rest ∧ Braced braced pairs := by
  rw [parse] at h
  split at h
  · exact absurd rfl h
  · split at h
    · next levels rest hText =>
      obtain ⟨braced, pairs, hEq, hBraced, _⟩ := braced_of_parseText hText
      exact ⟨braced, rest, pairs, hEq, hBraced⟩
    · exact absurd rfl h

/-- The text behind the closing brace is determined by the text. -/
theorem Braced.unique {braced braced' rest rest' : List Char}
    {pairs pairs' : List (List Char × List Char)} (h : Braced braced pairs)
    (h' : Braced braced' pairs') (hEq : braced ++ rest = braced' ++ rest') : rest = rest' := by
  have hText := parseText_eq_ok h rest
  rw [hEq, parseText_eq_ok h' rest'] at hText
  exact (Prod.mk.inj (Except.ok.inj hText)).2.symm

theorem Braced.ne_nil {text : List Char} {pairs : List (List Char × List Char)}
    (h : Braced text pairs) : pairs ≠ [] := by
  obtain ⟨_, _, _, _, hPairs⟩ := h
  cases hPairs with
  | last => simp
  | more => simp

theorem lookup_assign (pairs : List (List Char × List Char)) (name : List Char) :
    (assign ∅ pairs).lookup name = lastNumber pairs name :=
  Table.lookup_foldl_insert pairs name

theorem assign_ne_empty {pairs : List (List Char × List Char)} (h : pairs ≠ []) :
    assign ∅ pairs ≠ ∅ := by
  obtain ⟨⟨name, number⟩, rest, rfl⟩ := List.exists_cons_of_ne_nil h
  intro hEmpty
  have hMem : name ∈ assign ∅ ((name, number) :: rest) :=
    Table.mem_foldl_insert (.inr ⟨(name, number), List.mem_cons_self, rfl⟩)
  rw [hEmpty] at hMem
  exact AList.notMem_empty name hMem

end LogConfig

open LogConfig in
/-- The parser does what is documented with a text if and only if nothing but blanks follows the
closing brace in it. -/
theorem log_config_documented_iff (text : List Char) :
    (((parse text).1 ≠ ∅ ↔ ∃ pairs, Documented text pairs) ∧
      ∀ pairs, Documented text pairs → ∀ name, (parse text).1.lookup name = lastNumber pairs name) ↔
    ∀ braced rest pairs, text = braced ++ rest → Braced braced pairs → IsBlanks rest := by
  constructor
  · rintro ⟨hIff, _⟩ braced rest pairs rfl hBraced
    have hSome : (parse (braced ++ rest)).1 ≠ ∅ := by
      rw [parse_of_braced hBraced]
      exact assign_ne_empty hBraced.ne_nil
    obtain ⟨pairs', braced', blanks, hEq, hBraced', hBlanks⟩ := hIff.mp hSome
    rw [hBraced.unique hBraced' hEq]
    exact hBlanks
  · intro hBlanks
    refine ⟨⟨?_, ?_⟩, ?_⟩
    · intro hSome
      obtain ⟨braced, rest, pairs, hEq, hBraced⟩ := braced_of_parse hSome
      exact ⟨pairs, braced, rest, hEq, hBraced, hBlanks braced rest pairs hEq hBraced⟩
    · rintro ⟨pairs, braced, rest, rfl, hBraced, _⟩
      rw [parse_of_braced hBraced]
      exact assign_ne_empty hBraced.ne_nil
    · rintro pairs ⟨braced, rest, rfl, hBraced, _⟩ name
      rw [parse_of_braced hBraced, lookup_assign]

theorem LogConfig.braced_one_pair : LogConfig.Braced "\x7ba:1\x7d".toList [(['a'], ['1'])] :=
  ⟨[], "a:1\x7d".toList, by simp [LogConfig.IsBlanks], rfl,
    .last ⟨[], [], [], [], by simp [LogConfig.IsBlanks], by simp [LogConfig.IsBlanks],
      by simp [LogConfig.IsBlanks], by simp [LogConfig.IsBlanks],
      ⟨'a', [], rfl, rfl, by simp⟩, ⟨'1', [], rfl, rfl, by simp⟩, rfl⟩⟩

/-- What follows the closing brace is not looked at. -/
theorem log_config_trailing_text :
    (LogConfig.parse "\x7ba:1\x7dx".toList).1.lookup ['a'] = some ['1'] ∧
      ¬∃ pairs, LogConfig.Documented "\x7ba:1\x7dx".toList pairs := by
  refine ⟨rfl, ?_⟩
  rintro ⟨pairs, braced, blanks, hEq, hBraced, hBlanks⟩
  have hRest : ['x'] = blanks := LogConfig.braced_one_pair.unique hBraced hEq
  have hBlank := hBlanks 'x' (by simp [← hRest])
  exact absurd hBlank (by decide)

end PsRpc
