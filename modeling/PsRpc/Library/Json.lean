import Mathlib.Data.Char
import Mathlib.Data.List.Lex
import PsRpc.Library.JsonText
import PsRpc.Library.SortedMap

/-! # JSON values and their text

The values of a JSON library whose objects are maps in the order of their keys, the text without
blanks that it writes and a reader of one value at the front of a text. Reading what was written
gives the value again. Numbers are integers.
-/

inductive Json where
  | null
  | bool (value : Bool)
  | num (value : Int)
  | str (text : List Char)
  | arr (elements : List Json)
  | obj (members : List (List Char × Json))

namespace Json

open JsonText Scan

/-! ## Writing -/

mutual

def dump : Json → List Char
  | null => "null".toList
  | bool true => "true".toList
  | bool false => "false".toList
  | num value => dumpInt value
  | str text => dumpString text
  | arr elements => '[' :: dumpElements elements
  | obj members => '\x7b' :: dumpMembers members

def dumpElements : List Json → List Char
  | [] => [']']
  | element :: elements => dump element ++ dumpMoreElements elements

def dumpMoreElements : List Json → List Char
  | [] => [']']
  | element :: elements => ',' :: (dump element ++ dumpMoreElements elements)

def dumpMembers : List (List Char × Json) → List Char
  | [] => ['\x7d']
  | (key, value) :: members => dumpString key ++ ':' :: (dump value ++ dumpMoreMembers members)

def dumpMoreMembers : List (List Char × Json) → List Char
  | [] => ['\x7d']
  | (key, value) :: members =>
    ',' :: (dumpString key ++ ':' :: (dump value ++ dumpMoreMembers members))

end

/-! ## Reading -/

def isSpace (c : Char) : Bool := c = ' ' || c = '\t' || c = '\n' || c = '\r'

def skipSpace (text : List Char) : List Char := text.dropWhile isSpace

mutual

def parseValue : Nat → List Char → Option (Json × List Char)
  | 0, _ => none
  | fuel + 1, text =>
    match skipSpace text with
    | 'n' :: 'u' :: 'l' :: 'l' :: rest => some (null, rest)
    | 't' :: 'r' :: 'u' :: 'e' :: rest => some (bool true, rest)
    | 'f' :: 'a' :: 'l' :: 's' :: 'e' :: rest => some (bool false, rest)
    | '"' :: rest => (parseChars rest).map fun (text, rest) => (str text, rest)
    | '[' :: rest =>
      match skipSpace rest with
      | ']' :: rest => some (arr [], rest)
      | rest => (parseElements fuel rest).map fun (elements, rest) => (arr elements, rest)
    | '\x7b' :: rest =>
      match skipSpace rest with
      | '\x7d' :: rest => some (obj [], rest)
      | rest => (parseMembers fuel [] rest).map fun (members, rest) => (obj members, rest)
    | rest => (parseInt rest).map fun (value, rest) => (num value, rest)

def parseElements : Nat → List Char → Option (List Json × List Char)
  | 0, _ => none
  | fuel + 1, text => do
    let (element, rest) ← parseValue fuel text
    match skipSpace rest with
    | ',' :: rest =>
      (parseElements fuel rest).map fun (elements, rest) => (element :: elements, rest)
    | ']' :: rest => some ([element], rest)
    | _ => none

/-- The members are entered one by one; a key that comes again is assigned again. -/
def parseMembers : Nat → List (List Char × Json) → List Char →
    Option (List (List Char × Json) × List Char)
  | 0, _, _ => none
  | fuel + 1, members, text =>
    match skipSpace text with
    | '"' :: rest => do
      let (key, rest) ← parseChars rest
      match skipSpace rest with
      | ':' :: rest => do
        let (value, rest) ← parseValue fuel rest
        match skipSpace rest with
        | ',' :: rest => parseMembers fuel (SortedMap.assign members key value) rest
        | '\x7d' :: rest => some (SortedMap.assign members key value, rest)
        | _ => none
      | _ => none
    | _ => none

end

/-- The value at the front of a text; what follows it is not looked at. -/
def parse (text : List Char) : Option Json :=
  (parseValue (2 * text.length) text).map Prod.fst

/-! ## Members of an object -/

def members : Json → Option (List (List Char × Json))
  | null => some []
  | obj members => some members
  | _ => none

def find (js : Json) (key : List Char) : Option Json := js.members.bind (·.lookup key)

def assign (js : Json) (key : List Char) (value : Json) : Option Json :=
  js.members.map fun members => obj (SortedMap.assign members key value)

/-! ## Reading what was written -/

mutual

/-- Objects are sorted by their keys, and numbers are integers of 64 bits. -/
def WellFormed : Json → Prop
  | num value => InRange value
  | arr elements => WellFormedElements elements
  | obj members => (members.Pairwise fun a b => a.1 < b.1) ∧ WellFormedMembers members
  | _ => True

def WellFormedElements : List Json → Prop
  | [] => True
  | element :: elements => element.WellFormed ∧ WellFormedElements elements

def WellFormedMembers : List (List Char × Json) → Prop
  | [] => True
  | (_, value) :: members => value.WellFormed ∧ WellFormedMembers members

end

theorem wellFormedMembers_iff {members : List (List Char × Json)} :
    WellFormedMembers members ↔ ∀ member ∈ members, member.2.WellFormed := by
  induction members with
  | nil => simp [WellFormedMembers]
  | cons member members ih =>
    rw [WellFormedMembers, ih, List.forall_mem_cons]

theorem wellFormed_null : null.WellFormed := by simp [WellFormed]

theorem wellFormed_str (text : List Char) : (str text).WellFormed := by simp [WellFormed]

theorem dump_str (text : List Char) : (str text).dump = dumpString text := by rw [dump]

theorem WellFormed.members {js : Json} (h : js.WellFormed) {members : List (List Char × Json)}
    (hMembers : js.members = some members) : (obj members).WellFormed := by
  cases js with
  | null =>
    cases hMembers
    exact ⟨.nil, trivial⟩
  | obj _ =>
    cases hMembers
    exact h
  | bool _ => cases hMembers
  | num _ => cases hMembers
  | str _ => cases hMembers
  | arr _ => cases hMembers

theorem WellFormed.assign {js value js' : Json} {key : List Char} (h : js.WellFormed)
    (hValue : value.WellFormed) (hAssign : js.assign key value = some js') : js'.WellFormed := by
  obtain ⟨members, hMembers, rfl⟩ := Option.map_eq_some_iff.mp hAssign
  have hOld := h.members hMembers
  refine ⟨SortedMap.sorted_assign hOld.1 key value, wellFormedMembers_iff.mpr ?_⟩
  intro member hMember
  obtain rfl | hMember := SortedMap.mem_assign hMember
  · exact hValue
  · exact wellFormedMembers_iff.mp hOld.2 member hMember

theorem isSome_assign_of_assign {js value js' : Json} {key : List Char}
    (h : js.assign key value = some js') (key' : List Char) (value' : Json) :
    (js'.assign key' value').isSome := by
  obtain ⟨members, _, rfl⟩ := Option.map_eq_some_iff.mp h
  rfl

theorem find_assign {js value js' : Json} {key : List Char} (h : js.assign key value = some js')
    (name : List Char) : js'.find name = if name = key then some value else js.find name := by
  obtain ⟨members, hMembers, rfl⟩ := Option.map_eq_some_iff.mp h
  have hLookup := SortedMap.lookup_assign members key name value
  rw [find, find, hMembers]
  split
  · next hName => rwa [if_pos hName] at hLookup
  · next hName => rwa [if_neg hName] at hLookup

theorem skipSpace_cons {c : Char} (h : isSpace c = false) (rest : List Char) :
    skipSpace (c :: rest) = c :: rest :=
  (stops_cons.mpr h).dropWhile

theorem numeric_ne {c : Char} (h : c = '-' ∨ isDigit c = true) :
    isSpace c = false ∧ c ≠ 'n' ∧ c ≠ 't' ∧ c ≠ 'f' ∧ c ≠ '"' ∧ c ≠ '[' ∧ c ≠ '\x7b' ∧ c ≠ ']' := by
  rcases h with rfl | h
  · decide
  · refine ⟨?_, ?_, ?_, ?_, ?_, ?_, ?_, ?_⟩
    · rw [← Bool.not_eq_true]
      intro hSpace
      simp only [isSpace, Bool.or_eq_true, decide_eq_true_eq] at hSpace
      rcases hSpace with ((rfl | rfl) | rfl) | rfl <;> revert h <;> decide
    all_goals
      rintro rfl
      revert h
      decide

theorem exists_dump (v : Json) :
    ∃ c rest, dump v = c :: rest ∧ isSpace c = false ∧ c ≠ ']' := by
  cases v with
  | null => exact ⟨'n', _, rfl, rfl, by decide⟩
  | bool value =>
    cases value with
    | false => exact ⟨'f', _, rfl, rfl, by decide⟩
    | true => exact ⟨'t', _, rfl, rfl, by decide⟩
  | num value =>
    obtain ⟨c, rest, hEq, hFirst⟩ := exists_dumpInt value
    have hNe := numeric_ne hFirst
    exact ⟨c, rest, by rw [dump, hEq], hNe.1, hNe.2.2.2.2.2.2.2⟩
  | str text => exact ⟨'"', _, rfl, rfl, by decide⟩
  | arr elements => exact ⟨'[', _, by rw [dump], rfl, by decide⟩
  | obj members => exact ⟨'\x7b', _, by rw [dump], rfl, by decide⟩

theorem parseValue_num {fuel : Nat} {c : Char} {rest : List Char}
    (h : c = '-' ∨ isDigit c = true) :
    parseValue (fuel + 1) (c :: rest) =
      (parseInt (c :: rest)).map fun (value, rest) => (num value, rest) := by
  obtain ⟨hSpace, hN, hT, hF, hQuote, hBracket, hBrace, _⟩ := numeric_ne h
  rw [parseValue, skipSpace_cons hSpace]
  split
  · next hEq => exact absurd (List.cons.inj hEq).1 hN
  · next hEq => exact absurd (List.cons.inj hEq).1 hT
  · next hEq => exact absurd (List.cons.inj hEq).1 hF
  · next hEq => exact absurd (List.cons.inj hEq).1 hQuote
  · next hEq => exact absurd (List.cons.inj hEq).1 hBracket
  · next hEq => exact absurd (List.cons.inj hEq).1 hBrace
  · rfl

theorem parseValue_str {fuel : Nat} {rest : List Char} :
    parseValue (fuel + 1) ('"' :: rest) =
      (parseChars rest).map fun (text, rest) => (str text, rest) :=
  rfl

theorem parseValue_elements {fuel : Nat} {c : Char} {rest : List Char} (hSpace : isSpace c = false)
    (hBracket : c ≠ ']') :
    parseValue (fuel + 1) ('[' :: c :: rest) =
      (parseElements fuel (c :: rest)).map fun (elements, rest) => (arr elements, rest) := by
  have hSkip := skipSpace_cons hSpace rest
  rw [parseValue, skipSpace_cons rfl]
  simp only [hSkip]
  split
  · next hEq => exact absurd (List.cons.inj hEq).1 hBracket
  · rfl

theorem parseValue_members {fuel : Nat} {rest : List Char} :
    parseValue (fuel + 1) ('\x7b' :: '"' :: rest) =
      (parseMembers fuel [] ('"' :: rest)).map fun (members, rest) => (obj members, rest) :=
  rfl

theorem stops_more_elements (elements : List Json) (rest : List Char) :
    Stops isNumeric (dumpMoreElements elements ++ rest) := by
  cases elements with
  | nil => exact stops_cons.mpr rfl
  | cons element elements => exact stops_cons.mpr rfl

theorem stops_more_members (members : List (List Char × Json)) (rest : List Char) :
    Stops isNumeric (dumpMoreMembers members ++ rest) := by
  cases members with
  | nil => exact stops_cons.mpr rfl
  | cons member members => exact stops_cons.mpr rfl

theorem dump_length_pos (v : Json) : 0 < (dump v).length := by
  obtain ⟨c, rest, hEq, _⟩ := exists_dump v
  rw [hEq]
  simp

theorem dumpMoreElements_length_pos (elements : List Json) :
    0 < (dumpMoreElements elements).length := by
  cases elements with
  | nil => simp [dumpMoreElements]
  | cons element elements => simp [dumpMoreElements]

theorem dumpMoreMembers_length_pos (members : List (List Char × Json)) :
    0 < (dumpMoreMembers members).length := by
  cases members with
  | nil => simp [dumpMoreMembers]
  | cons member members => simp [dumpMoreMembers]

/-- What the readers do with written text, with fuel for some number of calls. -/
structure ReadsBack (fuel : Nat) : Prop where
  value : ∀ v : Json, v.WellFormed → 2 * (dump v).length ≤ fuel →
    ∀ rest, Stops isNumeric rest → parseValue fuel (dump v ++ rest) = some (v, rest)
  elements : ∀ element elements, WellFormedElements (element :: elements) →
    2 * (dump element ++ dumpMoreElements elements).length ≤ fuel →
    ∀ rest, parseElements fuel (dump element ++ dumpMoreElements elements ++ rest) =
      some (element :: elements, rest)
  members : ∀ before key value members,
    (before ++ (key, value) :: members).Pairwise (fun a b => a.1 < b.1) →
    WellFormedMembers ((key, value) :: members) →
    2 * (dumpString key ++ ':' :: (dump value ++ dumpMoreMembers members)).length ≤ fuel →
    ∀ rest, parseMembers fuel before
        (dumpString key ++ ':' :: (dump value ++ dumpMoreMembers members) ++ rest) =
      some (before ++ (key, value) :: members, rest)

variable {fuel : Nat}

theorem ReadsBack.value_succ (ih : ReadsBack fuel) (v : Json) (h : v.WellFormed)
    (hFuel : 2 * (dump v).length ≤ fuel + 1) (rest : List Char) (hRest : Stops isNumeric rest) :
    parseValue (fuel + 1) (dump v ++ rest) = some (v, rest) := by
  cases v with
  | null => rfl
  | bool value =>
    cases value with
    | false => rfl
    | true => rfl
  | num value =>
    have hParse := parseInt_dump h hRest
    obtain ⟨c, run, hEq, hFirst⟩ := exists_dumpInt value
    rw [hEq, List.cons_append] at hParse
    rw [dump, hEq, List.cons_append, parseValue_num hFirst, hParse]
    rfl
  | str text =>
    rw [dump, dumpString, List.cons_append, List.append_assoc, parseValue_str,
      List.singleton_append, parseChars_dump]
    rfl
  | arr elements =>
    cases elements with
    | nil => rfl
    | cons element elements =>
      rw [dump, dumpElements] at hFuel ⊢
      rw [List.length_cons] at hFuel
      have hLoop := ih.elements element elements h (by omega) rest
      obtain ⟨c, text, hEq, hSpace, hBracket⟩ := exists_dump element
      rw [hEq, List.cons_append, List.cons_append] at hLoop
      rw [hEq, List.cons_append, List.cons_append, List.cons_append,
        parseValue_elements hSpace hBracket, hLoop]
      rfl
  | obj members =>
    cases members with
    | nil => rfl
    | cons member members =>
      obtain ⟨key, value⟩ := member
      rw [dump, dumpMembers] at hFuel ⊢
      rw [List.length_cons] at hFuel
      have hLoop := ih.members [] key value members h.1 h.2 (by omega) rest
      rw [dumpString, List.cons_append, List.cons_append] at hLoop ⊢
      rw [List.cons_append, parseValue_members, hLoop]
      rfl

theorem ReadsBack.elements_succ (ih : ReadsBack fuel) (element : Json) (elements : List Json)
    (h : WellFormedElements (element :: elements))
    (hFuel : 2 * (dump element ++ dumpMoreElements elements).length ≤ fuel + 1)
    (rest : List Char) :
    parseElements (fuel + 1) (dump element ++ dumpMoreElements elements ++ rest) =
      some (element :: elements, rest) := by
  have hPos := dump_length_pos element
  have hMore := dumpMoreElements_length_pos elements
  rw [List.length_append] at hFuel
  have hFirst := ih.value element h.1 (by omega) _ (stops_more_elements elements rest)
  rw [List.append_assoc, parseElements, hFirst]
  cases elements with
  | nil => rfl
  | cons next elements =>
    rw [dumpMoreElements, List.length_cons] at hFuel
    have hLoop := ih.elements next elements h.2 (by omega) rest
    change (parseElements fuel (dump next ++ dumpMoreElements elements ++ rest)).map _ = _
    rw [hLoop]
    rfl

theorem parseMembers_key (before : List (List Char × Json)) (key rest : List Char) :
    parseMembers (fuel + 1) before (dumpString key ++ ':' :: rest) = (do
      let (value, rest) ← parseValue fuel rest
      match skipSpace rest with
      | ',' :: rest => parseMembers fuel (SortedMap.assign before key value) rest
      | '\x7d' :: rest => some (SortedMap.assign before key value, rest)
      | _ => none) := by
  have hKey := parseChars_dump key (':' :: rest)
  rw [dumpString, List.cons_append, List.append_assoc, List.singleton_append, parseMembers,
    skipSpace_cons rfl]
  simp only [hKey]
  rfl

theorem ReadsBack.members_succ (ih : ReadsBack fuel) (before : List (List Char × Json))
    (key : List Char) (value : Json) (members : List (List Char × Json))
    (hSorted : (before ++ (key, value) :: members).Pairwise fun a b => a.1 < b.1)
    (h : WellFormedMembers ((key, value) :: members))
    (hFuel : 2 * (dumpString key ++ ':' :: (dump value ++ dumpMoreMembers members)).length ≤
      fuel + 1) (rest : List Char) :
    parseMembers (fuel + 1) before
        (dumpString key ++ ':' :: (dump value ++ dumpMoreMembers members) ++ rest) =
      some (before ++ (key, value) :: members, rest) := by
  have hMore := dumpMoreMembers_length_pos members
  rw [List.length_append, List.length_cons, List.length_append] at hFuel
  have hValue := ih.value value h.1 (by omega) _ (stops_more_members members rest)
  have hAssign : SortedMap.assign before key value = before ++ [(key, value)] := by
    apply SortedMap.assign_last
    intro old hOld
    exact (List.pairwise_append.mp hSorted).2.2 old hOld _ List.mem_cons_self
  rw [List.append_assoc, List.cons_append, List.append_assoc, parseMembers_key]
  rw [hValue]
  cases members with
  | nil =>
    change some (SortedMap.assign before key value, rest) = _
    rw [hAssign]
  | cons next members =>
    obtain ⟨nextKey, nextValue⟩ := next
    rw [List.append_cons] at hSorted
    rw [dumpMoreMembers, List.length_cons] at hFuel
    have hLoop := ih.members _ nextKey nextValue members hSorted h.2 (by omega) rest
    change parseMembers fuel (SortedMap.assign before key value)
      (dumpString nextKey ++ ':' :: (dump nextValue ++ dumpMoreMembers members) ++ rest) = _
    rw [hAssign, hLoop, ← List.append_cons]

theorem readsBack (fuel : Nat) : ReadsBack fuel := by
  induction fuel with
  | zero =>
    constructor
    · intro v _ hFuel
      have hPos := dump_length_pos v
      omega
    · intro element elements _ hFuel
      have hPos := dump_length_pos element
      rw [List.length_append] at hFuel
      omega
    · intro before key value members _ _ hFuel
      rw [List.length_append, List.length_cons] at hFuel
      omega
  | succ fuel ih => exact ⟨ih.value_succ, ih.elements_succ, ih.members_succ⟩

/-- Reading what was written gives the value again. -/
theorem parse_dump {v : Json} (h : v.WellFormed) : parse (dump v) = some v := by
  have hValue := (readsBack _).value v h (le_refl _) [] stops_nil
  rw [List.append_nil] at hValue
  rw [parse, hValue]
  rfl

end Json
