import PsRpc.Library.Execution
import PsRpc.Library.Json
import PsRpc.Library.Lanes

/-! # The configuration file

`FileConfiguration` keeps a JSON value and writes its text to the file at its path on every `Put`.
A fresh object gets the value back with `Initialize`. The JSON library is a parameter.
-/

namespace PsRpc

open Execution

/-- What the code uses of the JSON library: `find` is `contains` with `at`, `assign` is the
assignment `js[key] = value` of a string, which can throw, and `leftover` is the value that the
parser leaves when it throws. The library is assumed to read back the values that it has written and
to write a string in quotes, with its characters escaped one by one. -/
structure JsonLibrary where
  Json : Type
  null : Json
  str : List Char → Json
  find : Json → List Char → Option Json
  assign : Json → List Char → List Char → Option Json
  dump : Json → List Char
  parse : List Char → Option Json
  leftover : List Char → Json
  escape : Char → List Char
  Valid : Json → Prop
  valid_null : Valid null
  valid_assign : ∀ js key value js', Valid js → assign js key value = some js' → Valid js'
  parse_dump : ∀ js, Valid js → parse (dump js) = some js
  dump_str : ∀ text, dump (str text) = '"' :: (text.flatMap escape ++ ['"'])
  escape_ne_nil : ∀ c, escape c ≠ []
  find_null : ∀ key, find null key = none
  assign_null : ∀ key value, (assign null key value).isSome
  assign_assign : ∀ js key value js', assign js key value = some js' →
    ∀ key' value', (assign js' key' value').isSome
  find_assign : ∀ js key value js', assign js key value = some js' →
    ∀ name, find js' name = if name = key then some (str value) else find js name

/-- The text of the file, if there is one, and the value of the object. -/
structure FileConfiguration (json : JsonLibrary) where
  file : Option (List Char)
  js : json.Json

inductive JsonException where
  | typeError (id : Nat)

/-- `reload` is a fresh object for the same path, with a call of `Initialize`. -/
inductive ConfigOp where
  | put (key value : List Char)
  | reload

namespace FileConfiguration

variable {json : JsonLibrary}

def new : FileConfiguration json := ⟨none, json.null⟩

def initializeFromFile (config : FileConfiguration json) : Bool × FileConfiguration json :=
  match config.file with
  | none => (false, config)
  | some text =>
    match json.parse text with
    | none => (false, { config with js := json.leftover text })
    | some js => (true, { config with js })

def get (config : FileConfiguration json) (key defaultvalue : List Char) : List Char :=
  match json.find config.js key with
  | none => defaultvalue
  | some value => json.dump value

/-- Opening the file for writing empties it before the value is assigned. -/
def put (config : FileConfiguration json) (key value : List Char) :
    Except JsonException Unit × FileConfiguration json :=
  match json.assign config.js key value with
  | none => (.error (.typeError 305), { config with file := some [] })
  | some js => (.ok (), { file := some (json.dump js), js })

def reload (config : FileConfiguration json) : FileConfiguration json :=
  (initializeFromFile { new with file := config.file }).2

def step (config : FileConfiguration json) : ConfigOp → Option (FileConfiguration json)
  | .put key value =>
    match config.put key value with
    | (.ok _, config) => some config
    | (.error _, _) => none
  | .reload => some config.reload

end FileConfiguration

def ConfigOp.valueFor (key : List Char) : ConfigOp → Option (List Char)
  | .put name value => if name = key then some value else none
  | .reload => none

def lastPut (ops : List ConfigOp) (key : List Char) : Option (List Char) :=
  (ops.filterMap (·.valueFor key)).getLast?

theorem lastPut_snoc (ops : List ConfigOp) (op : ConfigOp) (key : List Char) :
    lastPut (ops ++ [op]) key = (op.valueFor key).or (lastPut ops key) :=
  Lanes.getLast?_filterMap_snoc _ ops op

theorem JsonLibrary.length_lt_dump_str (json : JsonLibrary) (text : List Char) :
    text.length < (json.dump (json.str text)).length := by
  have hEscaped : text.length ≤ (text.flatMap json.escape).length := by
    induction text with
    | nil => exact Nat.le_refl 0
    | cons c text ih =>
      have hPos := List.length_pos_iff.mpr (json.escape_ne_nil c)
      rw [List.flatMap_cons, List.length_append, List.length_cons]
      omega
  rw [json.dump_str, List.length_cons, List.length_append]
  omega

namespace FileConfiguration

variable {json : JsonLibrary} {config : FileConfiguration json}

/-- The file has the text of the value, which can be assigned to; before the first `Put` there is no
file. -/
structure Persisted (config : FileConfiguration json) : Prop where
  valid : json.Valid config.js
  file : config = new ∨ config.file = some (json.dump config.js)
  assign : ∀ key value, (json.assign config.js key value).isSome

theorem persisted_new : Persisted (new : FileConfiguration json) :=
  ⟨json.valid_null, .inl rfl, json.assign_null⟩

theorem Persisted.reload (h : Persisted config) : config.reload = config := by
  rcases h.file with rfl | hFile
  · rfl
  · obtain ⟨file, js⟩ := config
    have hFile : file = some (json.dump js) := hFile
    rw [FileConfiguration.reload, initializeFromFile, hFile]
    dsimp only
    rw [json.parse_dump js h.valid]

theorem Persisted.put (h : Persisted config) (key value : List Char) :
    ∃ config', config.put key value = (.ok (), config') ∧ Persisted config' ∧
      ∀ name, json.find config'.js name =
        if name = key then some (json.str value) else json.find config.js name := by
  obtain ⟨js, hAssign⟩ := Option.isSome_iff_exists.mp (h.assign key value)
  refine ⟨⟨some (json.dump js), js⟩, by rw [FileConfiguration.put, hAssign], ?_,
    json.find_assign _ _ _ _ hAssign⟩
  exact ⟨json.valid_assign _ _ _ _ h.valid hAssign, .inr rfl, json.assign_assign _ _ _ _ hAssign⟩

theorem exists_exec (json : JsonLibrary) (ops : List ConfigOp) :
    ∃ config : FileConfiguration json, exec step .new ops = some config ∧ Persisted config ∧
      ∀ key, json.find config.js key = (lastPut ops key).map json.str := by
  induction ops using List.reverseRecOn with
  | nil => exact ⟨new, rfl, persisted_new, json.find_null⟩
  | append_singleton ops op ih =>
    obtain ⟨config, hExec, hPersisted, hFind⟩ := ih
    cases op with
    | put key value =>
      obtain ⟨config', hPut, hPersisted', hFind'⟩ := hPersisted.put key value
      refine ⟨config', exec_snoc.mpr ⟨config, hExec, by rw [step, hPut]⟩, hPersisted', ?_⟩
      intro name
      rw [hFind', lastPut_snoc, ConfigOp.valueFor, hFind]
      simp only [eq_comm]
      split
      · rfl
      · rfl
    | reload =>
      refine ⟨config, exec_snoc.mpr ⟨config, hExec, ?_⟩, hPersisted, ?_⟩
      · rw [step, hPersisted.reload]
      · intro name
        rw [hFind, lastPut_snoc, ConfigOp.valueFor, Option.none_or]

theorem get_of_find {put : Option (List Char)} {key : List Char}
    (h : json.find config.js key = put.map json.str) (defaultvalue : List Char) :
    config.get key defaultvalue =
      (put.map fun value => json.dump (json.str value)).getD defaultvalue := by
  rw [get, h]
  cases put with
  | none => rfl
  | some value => rfl

end FileConfiguration

open FileConfiguration

/-- Every sequence of puts and reloads succeeds. What is read afterwards under a key is the JSON
text of the last value that was put there, with its quotes and escapes. -/
theorem configuration_get_iff (json : JsonLibrary) (ops : List ConfigOp)
    (key defaultvalue : List Char) :
    ∃ config : FileConfiguration json, exec step .new ops = some config ∧
      config.get key defaultvalue =
        ((lastPut ops key).map fun value => '"' :: (value.flatMap json.escape ++ ['"'])).getD
          defaultvalue ∧
      (config.get key defaultvalue = (lastPut ops key).getD defaultvalue ↔
        lastPut ops key = none) := by
  obtain ⟨config, hExec, _, hFind⟩ := exists_exec json ops
  have hGet := get_of_find (hFind key) defaultvalue
  simp only [← json.dump_str]
  refine ⟨config, hExec, hGet, ?_⟩
  rw [hGet]
  cases lastPut ops key with
  | none => simp
  | some value =>
    have hLonger := json.length_lt_dump_str value
    constructor
    · intro hEq
      have hSame : json.dump (json.str value) = value := hEq
      rw [hSame] at hLonger
      exact absurd hLonger (Nat.lt_irrefl _)
    · rintro ⟨⟩

/-- JSON values with the text that is written for them. -/
def jsonText : JsonLibrary where
  Json := Json
  null := .null
  str := .str
  find := Json.find
  assign js key value := js.assign key (.str value)
  dump := Json.dump
  parse := Json.parse
  leftover _ := .null
  escape := JsonText.escape
  Valid := Json.WellFormed
  valid_null := Json.wellFormed_null
  valid_assign _ _ value _ h hAssign := h.assign (Json.wellFormed_str value) hAssign
  parse_dump _ := Json.parse_dump
  dump_str _ := Json.dump_str _
  escape_ne_nil := JsonText.escape_ne_nil
  find_null _ := rfl
  assign_null _ _ := rfl
  assign_assign _ _ _ _ h key value := Json.isSome_assign_of_assign h key (.str value)
  find_assign _ _ _ _ := Json.find_assign

theorem configuration_get_quoted :
    ∃ config : FileConfiguration jsonText,
      exec step .new [.put ['k'] ['v'], .reload] = some config ∧
      lastPut [.put ['k'] ['v'], .reload] ['k'] = some ['v'] ∧
      config.get ['k'] [] = ['"', 'v', '"'] :=
  ⟨_, rfl, rfl, rfl⟩

end PsRpc
