import PsRpc.Log.LogConfig

/-! # The levels that the environment gives the submodules

`InitSubModulesLogLevel` sets the level of every submodule to the global one, which is the flag `v`
of glog, and then goes over the entries that `LogConfigParser` finds in `MS_SUBMODULE_LOG_v`. A
variable that is not set is the empty text. What glog makes of `GLOG_v` is a parameter.
-/

namespace PsRpc

open LogConfig

/-- An `int` that has no name is a value of the enumeration as well. -/
inductive MsLogLevel where
  | debug
  | info
  | warning
  | error
  | exception
  | unnamed (value : Int)
deriving DecidableEq, Repr

def MsLogLevel.ofInt (value : Int) : MsLogLevel :=
  if value = 0 then .debug
  else if value = 1 then .info
  else if value = 2 then .warning
  else if value = 3 then .error
  else if value = 4 then .exception
  else .unnamed value

namespace SubModule

def names : List (List Char) :=
  ["UNKNOWN", "CORE", "ANALYZER", "COMMON", "DEBUG", "DEVICE", "GE_ADPT", "IR", "KERNEL", "MD",
    "ME", "ONNX", "OPTIMIZER", "PARALLEL", "PARSER", "PIPELINE", "PRE_ACT", "PYNATIVE", "SESSION",
    "UTILS", "VM", "PROFILER", "PS", "LITE"].map String.toList

def parseLogLevel : List Char → Option MsLogLevel
  | ['0'] => some .debug
  | ['1'] => some .info
  | ['2'] => some .warning
  | ['3'] => some .error
  | _ => none

def getGlobalLogLevel (flagsV : Int) : MsLogLevel := .ofInt flagsV

def setLevel (levels : List MsLogLevel) (cfg : Sigma fun _ : List Char => List Char) :
    List MsLogLevel :=
  match names.findIdx? (fun name => cfg.1 = name) with
  | none => levels
  | some modIdx =>
    match parseLogLevel cfg.2 with
    | none => levels
    | some level => levels.set modIdx level

def initSubModulesLogLevel (flagsV : Int) (submoduleLogV : List Char) : List MsLogLevel :=
  (parse submoduleLogV).1.entries.foldl setLevel
    (List.replicate names.length (getGlobalLogLevel flagsV))

/-- `FLAGS_v` is `WARNING` if `GLOG_v` is empty, and otherwise what glog has read from it. -/
def flagsAfterInit (glogV : List Char) (flagsV : Int) : Int := if glogV = [] then 2 else flagsV

def commonLogInit (glogV : List Char) (flagsV : Int) (submoduleLogV : List Char) :
    List MsLogLevel :=
  initSubModulesLogLevel (flagsAfterInit glogV flagsV) submoduleLogV

theorem names_nodup : names.Nodup := by decide

variable {levels : List MsLogLevel} {name : List Char} {i : Nat}

theorem findIdx?_names (hAt : names[i]? = some name) (other : List Char) :
    names.findIdx? (fun name' => other = name') = some i ↔ other = name := by
  obtain ⟨hLt, rfl⟩ := List.getElem?_eq_some_iff.mp hAt
  rw [List.findIdx?_eq_some_iff_getElem]
  constructor
  · rintro ⟨_, hSame, _⟩
    exact of_decide_eq_true hSame
  · rintro rfl
    refine ⟨hLt, decide_eq_true rfl, fun j hj hSame => ?_⟩
    have hIndex := (names_nodup.getElem_inj_iff).mp (of_decide_eq_true hSame)
    omega

theorem length_setLevel (levels : List MsLogLevel) (cfg : Sigma fun _ : List Char => List Char) :
    (setLevel levels cfg).length = levels.length := by
  unfold setLevel
  split
  · rfl
  · split
    · rfl
    · exact List.length_set ..

theorem getElem?_setLevel (hAt : names[i]? = some name) (hLength : i < levels.length)
    (cfg : Sigma fun _ : List Char => List Char) :
    (setLevel levels cfg)[i]? =
      if cfg.1 = name then (parseLogLevel cfg.2).or levels[i]? else levels[i]? := by
  have hFind := findIdx?_names hAt cfg.1
  unfold setLevel
  split
  · next hNone =>
    rw [hNone] at hFind
    rw [if_neg fun hSame => by cases hFind.mpr hSame]
  · next modIdx hSome =>
    rw [hSome, Option.some.injEq] at hFind
    split
    · next hLevel =>
      rw [hLevel, Option.none_or, ite_self]
    · next level hLevel =>
      rw [hLevel, Option.some_or, List.getElem?_set]
      by_cases hSame : modIdx = i
      · rw [if_pos hSame, if_pos (hFind.mp hSame), hSame, if_pos hLength]
      · rw [if_neg hSame, if_neg fun hName => hSame (hFind.mpr hName)]

/-- The entries have different names, so their order does not matter. -/
theorem getElem?_foldl_setLevel (hAt : names[i]? = some name)
    {entries : List (Sigma fun _ : List Char => List Char)} (hKeys : entries.NodupKeys)
    (hLength : i < levels.length) :
    (entries.foldl setLevel levels)[i]? =
      ((entries.dlookup name).bind parseLogLevel).or levels[i]? := by
  induction entries generalizing levels with
  | nil => rfl
  | cons cfg entries ih =>
    obtain ⟨key, value⟩ := cfg
    obtain ⟨hNew, hRest⟩ := List.nodupKeys_cons.mp hKeys
    rw [List.foldl_cons, ih hRest (by rw [length_setLevel]; exact hLength),
      getElem?_setLevel hAt hLength]
    by_cases hSame : key = name
    · subst hSame
      rw [if_pos rfl, List.dlookup_cons_eq, List.dlookup_eq_none.mpr hNew, Option.bind_none,
        Option.none_or, Option.bind_some]
    · rw [if_neg hSame, List.dlookup_cons_ne _ _ (Ne.symm hSame)]

theorem getElem?_initSubModulesLogLevel (hAt : names[i]? = some name)
    (flagsV : Int) (submoduleLogV : List Char) :
    (initSubModulesLogLevel flagsV submoduleLogV)[i]? =
      some ((((parse submoduleLogV).1.lookup name).bind parseLogLevel).getD
        (getGlobalLogLevel flagsV)) := by
  obtain ⟨hLt, _⟩ := List.getElem?_eq_some_iff.mp hAt
  rw [initSubModulesLogLevel, getElem?_foldl_setLevel hAt (parse submoduleLogV).1.nodupKeys
      (by rwa [List.length_replicate]), List.getElem?_replicate, if_pos hLt]
  change (((parse submoduleLogV).1.lookup name).bind parseLogLevel).or _ = _
  cases ((parse submoduleLogV).1.lookup name).bind parseLogLevel <;> rfl

end SubModule

/-- For all texts of the two variables and all values of the flag. If the variable for the
submodules starts with the documented form, whatever follows it, a submodule has the level of the
last pair with its name; if that number is no level or there is no such pair, also if an earlier one
has a level, it is the global level: `WARNING` if `GLOG_v` is empty, and the flag otherwise. That is
the level of all submodules for every other text. -/
theorem submodule_levels_of_environment (glogV submoduleLogV : List Char) (flagsV : Int) (i : Nat)
    (name : List Char) (hName : SubModule.names[i]? = some name) :
    (∀ braced rest pairs, submoduleLogV = braced ++ rest → Braced braced pairs →
      (SubModule.commonLogInit glogV flagsV submoduleLogV)[i]? =
        some (((lastNumber pairs name).bind SubModule.parseLogLevel).getD
          (if glogV = [] then .warning else .ofInt flagsV))) ∧
    ((¬ ∃ braced rest pairs, submoduleLogV = braced ++ rest ∧ Braced braced pairs) →
      (SubModule.commonLogInit glogV flagsV submoduleLogV)[i]? =
        some (if glogV = [] then .warning else .ofInt flagsV)) := by
  have hGlobal : SubModule.getGlobalLogLevel (SubModule.flagsAfterInit glogV flagsV) =
      if glogV = [] then .warning else .ofInt flagsV := by
    rw [SubModule.getGlobalLogLevel, SubModule.flagsAfterInit]
    split
    · rfl
    · rfl
  rw [SubModule.commonLogInit, SubModule.getElem?_initSubModulesLogLevel hName, hGlobal]
  constructor
  · rintro braced rest pairs rfl hBraced
    rw [parse_of_braced hBraced, lookup_assign]
  · intro hNone
    have hEmpty : (parse submoduleLogV).1 = ∅ := by
      by_contra hSome
      exact hNone (braced_of_parse hSome)
    rw [hEmpty, AList.lookup_empty]
    rfl

theorem SubModule.pairText_ps (number : Char) (hDigit : isDigit number = true) :
    PairText ['P', 'S', ':', number] ['P', 'S'] [number] := by
  have hBlanks : IsBlanks [] := List.forall_mem_nil _
  have hName : IsName ['P', 'S'] := ⟨'P', ['S'], rfl, rfl, List.forall_mem_singleton.mpr rfl⟩
  have hNumber : IsNumber [number] := ⟨number, [], rfl, hDigit, List.forall_mem_nil _⟩
  exact ⟨[], [], [], [], hBlanks, hBlanks, hBlanks, hBlanks, hName, hNumber, rfl⟩

/-- The second pair takes the level of the first one away. -/
theorem submodule_levels_of_environment_two_pairs :
    (SubModule.commonLogInit ['1'] 1 "\x7bPS:0,PS:7\x7d".toList)[22]? = some .info := by
  have hBraced : Braced "\x7bPS:0,PS:7\x7d".toList [(['P', 'S'], ['0']), (['P', 'S'], ['7'])] :=
    ⟨[], "PS:0,PS:7\x7d".toList, by simp [IsBlanks], rfl,
      .more (SubModule.pairText_ps '0' rfl) (.last (SubModule.pairText_ps '7' rfl))⟩
  exact (submodule_levels_of_environment ['1'] "\x7bPS:0,PS:7\x7d".toList 1 22 ['P', 'S'] rfl).1
    _ [] _ (List.append_nil _).symm hBraced

end PsRpc
