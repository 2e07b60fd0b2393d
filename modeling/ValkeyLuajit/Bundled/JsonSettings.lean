import ValkeyLuajit.Bundled.JsonGrammar
import ValkeyLuajit.Bundled.MsgPackTree
import ValkeyLuajit.Script.Log

/-!
# An instance of the JSON module

`lua_cjson.c`: the functions that change a setting. Whatever calls come before, in whatever
order and with whatever errors, the settings keep to their ranges, and encoding depends on them
and on the value alone.
-/

namespace ValkeyLuajit

open Lua

/-- A function of the module that works on its instance. -/
abbrev JsonCfgM (α : Type) : Type := Writer JsonModule JsonStop α

/-- `luaL_argerror`. -/
def jsonArgError {α : Type} (narg : Nat) (function : String) (message : Bytes) : Except JsonStop α :=
  .error (.raised (argErrorText narg function message))

/-- `json_arg_init`. -/
def jsonArgInit (function : String) (args : Nat) (given : List Value) : Except JsonStop (List Value) :=
  if given.length ≤ args then .ok (given ++ List.replicate (args - given.length) .nil)
  else jsonArgError (args + 1) function (bytes "found too many arguments")

variable (rt : Runtime) (host : JsonHost)

/-- What `json_integer_option` sets, if it sets anything. The range is always reported for the
first argument. -/
def jsonIntegerOption (function : String) (optindex : Nat) (argument : Value) (min max : Int) :
    Except JsonStop (Option {value : Int // min ≤ value ∧ value ≤ max}) :=
  if argument.isNil then .ok none
  else match argument.toNumber rt with
    | none => jsonArgError optindex function (bytes ("number expected, got " ++ argument.type.name))
    | some number =>
        let value := toInt32 (host.convert ⟨number, .longLong⟩)
        if range : min ≤ value ∧ value ≤ max then .ok (some ⟨value, range⟩)
        else jsonArgError 1 function
          (bytes ("expected integer between " ++ toString min ++ " and " ++ toString max))

/-- `luaL_checkoption`: the place of the option in the list. -/
def jsonCheckOption (function : String) (narg : Nat) (argument : Value) (options : List String) :
    Except JsonStop Nat :=
  match argument.toLString rt with
  | none => jsonArgError narg function (bytes ("string expected, got " ++ argument.type.name))
  | some name =>
      match options.findIdx? (bytes · = cString name) with
      | none => jsonArgError narg function (bytes "invalid option '" ++ (cString name ++ bytes "'"))
      | some i => .ok i

/-- What `json_enum_option` sets, if it sets anything. -/
def jsonEnumOption (function : String) (optindex : Nat) (argument : Value) (options : List String) :
    Except JsonStop (Option Nat) :=
  match argument with
  | .nil => .ok none
  | .boolean flag => .ok (some flag.toNat)
  | argument => (jsonCheckOption rt function optindex argument options).map some

/-- `bool_options`. -/
def boolOptions : List String := ["off", "on"]

/-- Change the settings of the instance. -/
def jsonSet (change : JsonConfig → JsonConfig) : JsonCfgM Unit :=
  modify fun json => { json with cfg := change json.cfg }

/-- A number that a setting is reported as. -/
def jsonReported (setting : Nat) : Value := .number (.finite setting)

/-- `json_cfg_encode_sparse_array`. What comes before a bad argument is set. -/
def jsonCfgEncodeSparseArray (given : List Value) : JsonCfgM (List Value) := do
  let args ← jsonArgInit "encode_sparse_array" 3 given
  let convert ← jsonEnumOption rt "encode_sparse_array" 1 (args.getD 0 .nil) boolOptions
  jsonSet fun cfg => { cfg with
    encodeSparseConvert := (convert.map (· != 0)).getD cfg.encodeSparseConvert }
  let ratio ← jsonIntegerOption rt host "encode_sparse_array" 2 (args.getD 1 .nil) 0 (2 ^ 31 - 1)
  jsonSet fun cfg =>
    match ratio with
    | none => cfg
    | some ⟨value, range⟩ => { cfg with encodeSparseRatio := value.toNat, ratio_lt := by omega }
  let safe ← jsonIntegerOption rt host "encode_sparse_array" 3 (args.getD 2 .nil) 0 (2 ^ 31 - 1)
  jsonSet fun cfg =>
    match safe with
    | none => cfg
    | some ⟨value, range⟩ => { cfg with encodeSparseSafe := value.toNat, safe_lt := by omega }
  let json ← get
  pure [.boolean json.cfg.encodeSparseConvert, jsonReported json.cfg.encodeSparseRatio,
    jsonReported json.cfg.encodeSparseSafe]

/-- `json_cfg_encode_max_depth`. -/
def jsonCfgEncodeMaxDepth (given : List Value) : JsonCfgM (List Value) := do
  let args ← jsonArgInit "encode_max_depth" 1 given
  let depth ← jsonIntegerOption rt host "encode_max_depth" 1 (args.getD 0 .nil) 1 (2 ^ 31 - 1)
  jsonSet fun cfg =>
    match depth with
    | none => cfg
    | some ⟨value, range⟩ => { cfg with encodeMaxDepth := value.toNat, encodeDepth := by omega }
  let json ← get
  pure [jsonReported json.cfg.encodeMaxDepth]

/-- `json_cfg_decode_max_depth`. -/
def jsonCfgDecodeMaxDepth (given : List Value) : JsonCfgM (List Value) := do
  let args ← jsonArgInit "decode_max_depth" 1 given
  let depth ← jsonIntegerOption rt host "decode_max_depth" 1 (args.getD 0 .nil) 1 (2 ^ 31 - 1)
  jsonSet fun cfg =>
    match depth with
    | none => cfg
    | some ⟨value, range⟩ => { cfg with decodeMaxDepth := value.toNat, decodeDepth := by omega }
  let json ← get
  pure [jsonReported json.cfg.decodeMaxDepth]

/-- `json_cfg_encode_number_precision`. -/
def jsonCfgEncodeNumberPrecision (given : List Value) : JsonCfgM (List Value) := do
  let args ← jsonArgInit "encode_number_precision" 1 given
  let digits ← jsonIntegerOption rt host "encode_number_precision" 1 (args.getD 0 .nil) 1 14
  jsonSet fun cfg =>
    match digits with
    | none => cfg
    | some ⟨value, range⟩ => { cfg with
        encodeNumberPrecision := value.toNat, precision := by omega }
  let json ← get
  pure [jsonReported json.cfg.encodeNumberPrecision]

/-- The buffer comes and goes with the setting. -/
def jsonKeepBuffer (keep : Option Bool) (json : JsonModule) : Except JsonStop JsonModule :=
  let keep := keep.getD json.cfg.encodeKeepBuffer
  let cfg := { json.cfg with encodeKeepBuffer := keep }
  if json.cfg.encodeKeepBuffer != keep then
    if keep then (strbufInit 0).map fun buf => ⟨cfg, some buf⟩ else .ok ⟨cfg, none⟩
  else .ok ⟨cfg, json.encodeBuf⟩

/-- `json_cfg_encode_keep_buffer`. -/
def jsonCfgEncodeKeepBuffer (given : List Value) : JsonCfgM (List Value) := do
  let args ← jsonArgInit "encode_keep_buffer" 1 given
  let keep ← jsonEnumOption rt "encode_keep_buffer" 1 (args.getD 0 .nil) boolOptions
  Writer.step (jsonKeepBuffer (keep.map (· != 0)))
  let json ← get
  pure [.boolean json.cfg.encodeKeepBuffer]

/-- The settings of `encode_invalid_numbers`, by their place in the options. -/
def InvalidNumbers.ofIndex : Nat → InvalidNumbers
  | 0 => .off
  | 1 => .on
  | _ => .null

/-- `json_cfg_encode_invalid_numbers`. -/
def jsonCfgEncodeInvalidNumbers (given : List Value) : JsonCfgM (List Value) := do
  let args ← jsonArgInit "encode_invalid_numbers" 1 given
  let setting ← jsonEnumOption rt "encode_invalid_numbers" 1 (args.getD 0 .nil) ["off", "on", "null"]
  jsonSet fun cfg => { cfg with
    encodeInvalidNumbers := (setting.map InvalidNumbers.ofIndex).getD cfg.encodeInvalidNumbers }
  let json ← get
  pure [match json.cfg.encodeInvalidNumbers with
    | .off => .boolean false
    | .on => .boolean true
    | .null => .string (bytes "null")]

/-- `json_cfg_decode_invalid_numbers`. -/
def jsonCfgDecodeInvalidNumbers (given : List Value) : JsonCfgM (List Value) := do
  let args ← jsonArgInit "decode_invalid_numbers" 1 given
  let setting ← jsonEnumOption rt "decode_invalid_numbers" 1 (args.getD 0 .nil) boolOptions
  jsonSet fun cfg => { cfg with
    decodeInvalidNumbers := (setting.map (· != 0)).getD cfg.decodeInvalidNumbers }
  let json ← get
  pure [.boolean json.cfg.decodeInvalidNumbers]

/-- The functions that change a setting. -/
inductive JsonSetting where
  | encodeSparseArray
  | encodeMaxDepth
  | decodeMaxDepth
  | encodeNumberPrecision
  | encodeKeepBuffer
  | encodeInvalidNumbers
  | decodeInvalidNumbers

/-- The entries of `lua_cjson_new` for them. -/
def JsonSetting.function : JsonSetting → List Value → JsonCfgM (List Value)
  | .encodeSparseArray => jsonCfgEncodeSparseArray rt host
  | .encodeMaxDepth => jsonCfgEncodeMaxDepth rt host
  | .decodeMaxDepth => jsonCfgDecodeMaxDepth rt host
  | .encodeNumberPrecision => jsonCfgEncodeNumberPrecision rt host
  | .encodeKeepBuffer => jsonCfgEncodeKeepBuffer rt
  | .encodeInvalidNumbers => jsonCfgEncodeInvalidNumbers rt
  | .decodeInvalidNumbers => jsonCfgDecodeInvalidNumbers rt

/-- `json_create_config`: a new instance. -/
def jsonNew : Except JsonStop JsonModule :=
  (strbufInit 0).map fun buf => ⟨jsonCreateConfig, some buf⟩

/-- The states of an instance, after any calls. -/
inductive JsonReachable : JsonModule → Prop where
  | new {json : JsonModule} : jsonNew = .ok json → JsonReachable json
  | configure {json : JsonModule} (setting : JsonSetting) (given : List Value) :
      JsonReachable json → JsonReachable (setting.function rt host given json).2
  | encode {json : JsonModule} (heap : Heap) (given : List Value) : JsonReachable json →
      (∀ value, given = [value] → json.Writable host heap value) →
      JsonReachable { json with encodeBuf := (jsonEncode host heap json given).2 }

section Invariants

variable {rt : Runtime} {host : JsonHost} {json : JsonModule}

theorem ready_new (made : jsonNew = .ok json) : json.Ready := by
  obtain ⟨buf, init, empty, -⟩ := strbufInit_holds (show 0 + 1 < 2 ^ 64 by decide)
  rw [jsonNew, init] at made
  cases made
  exact fun _ => ⟨buf, [], rfl, empty⟩

/-- A setting besides that of the buffer. -/
theorem keeps_jsonSet {change : JsonConfig → JsonConfig}
    (same : ∀ cfg, (change cfg).encodeKeepBuffer = cfg.encodeKeepBuffer) :
    Writer.Keeps JsonModule.Ready (jsonSet change) := by
  apply Writer.keeps_modify
  intro json ready keeps
  rw [same] at keeps
  exact ready keeps

theorem ready_jsonKeepBuffer {keep : Option Bool} {after : JsonModule} (ready : json.Ready)
    (changed : jsonKeepBuffer keep json = .ok after) : after.Ready := by
  obtain ⟨buf, init, empty, -⟩ := strbufInit_holds (show 0 + 1 < 2 ^ 64 by decide)
  simp only [jsonKeepBuffer] at changed
  generalize keep.getD json.cfg.encodeKeepBuffer = keep at changed
  split at changed
  · cases keep with
    | true =>
        rw [if_pos rfl, init] at changed
        cases changed
        exact fun _ => ⟨buf, [], rfl, empty⟩
    | false =>
        rw [if_neg Bool.false_ne_true] at changed
        cases changed
        exact fun keeps => by cases keeps
  · rename_i same
    have same : json.cfg.encodeKeepBuffer = keep := by simpa using same
    cases changed
    exact fun keeps => ready (same.trans keeps)

/-- A function that sets something it reads from its arguments, and then reports it. -/
theorem keeps_setting {α β : Type} {args : Except JsonStop α} {read : α → Except JsonStop β}
    {change : α → β → JsonCfgM Unit} {report : JsonModule → List Value}
    (kept : ∀ args value, Writer.Keeps JsonModule.Ready (change args value)) :
    Writer.Keeps JsonModule.Ready (do
      let args ← (liftM args : JsonCfgM α)
      let value ← (liftM (read args) : JsonCfgM β)
      change args value
      let json ← get
      pure (report json)) :=
  (Writer.keeps_decided _).bind fun _ => (Writer.keeps_decided _).bind fun _ =>
    (kept _ _).bind fun _ => Writer.keeps_get.bind fun _ => Writer.keeps_pure _

theorem keeps_jsonCfgEncodeSparseArray (given : List Value) :
    Writer.Keeps JsonModule.Ready (jsonCfgEncodeSparseArray rt host given) := by
  unfold jsonCfgEncodeSparseArray
  refine (Writer.keeps_decided _).bind fun args => ?_
  refine (Writer.keeps_decided _).bind fun convert => ?_
  refine Writer.Keeps.bind (keeps_jsonSet fun cfg => ?_) fun _ => ?_
  · rfl
  refine (Writer.keeps_decided _).bind fun ratio => ?_
  refine Writer.Keeps.bind (keeps_jsonSet fun cfg => ?_) fun _ => ?_
  · cases ratio <;> rfl
  refine (Writer.keeps_decided _).bind fun safe => ?_
  refine Writer.Keeps.bind (keeps_jsonSet fun cfg => ?_) fun _ => ?_
  · cases safe <;> rfl
  exact Writer.keeps_get.bind fun _ => Writer.keeps_pure _

/-- An instance keeps its buffer ready, whatever the arguments are. -/
theorem keeps_function (setting : JsonSetting) (given : List Value) :
    Writer.Keeps JsonModule.Ready (setting.function rt host given) := by
  cases setting with
  | encodeSparseArray => exact keeps_jsonCfgEncodeSparseArray given
  | encodeMaxDepth =>
      exact keeps_setting fun args value => keeps_jsonSet fun cfg => by cases value <;> rfl
  | decodeMaxDepth =>
      exact keeps_setting fun args value => keeps_jsonSet fun cfg => by cases value <;> rfl
  | encodeNumberPrecision =>
      exact keeps_setting fun args value => keeps_jsonSet fun cfg => by cases value <;> rfl
  | encodeKeepBuffer =>
      exact keeps_setting fun args keep => Writer.keeps_step fun _ _ => ready_jsonKeepBuffer
  | encodeInvalidNumbers => exact keeps_setting fun args value => keeps_jsonSet fun cfg => rfl
  | decodeInvalidNumbers => exact keeps_setting fun args value => keeps_jsonSet fun cfg => rfl

variable {heap : Heap}

/-- Encoding leaves the buffer ready for the next time, also after an error. -/
theorem ready_jsonEncode (ready : json.Ready) {given : List Value}
    (writable : ∀ value, given = [value] → json.Writable host heap value) :
    JsonModule.Ready { json with encodeBuf := (jsonEncode host heap json given).2 } := by
  intro keeps
  have setting : json.cfg.encodeKeepBuffer = true := keeps
  obtain ⟨buf, text, kept, holds⟩ := ready setting
  rcases given with _ | ⟨value, _ | ⟨other, others⟩⟩
  · exact ⟨buf, text, kept, holds⟩
  · obtain ⟨after, left, here, run⟩ := jsonEncodeTo_eq (writable value rfl) holds.reset
    refine ⟨after, left, ?_, here⟩
    rw [jsonEncode, if_pos setting, kept]
    simp only [run]
  · exact ⟨buf, text, kept, holds⟩

theorem JsonReachable.ready (reachable : JsonReachable rt host json) : json.Ready := by
  induction reachable with
  | new made => exact ready_new made
  | configure setting given _ inductionHypothesis =>
      exact keeps_function setting given _ inductionHypothesis
  | encode heap given _ writable inductionHypothesis =>
      exact ready_jsonEncode inductionHypothesis writable

variable {value : Value}

/-- A machine like most, in a locale with a dot. -/
def usualJsonHost : JsonHost := ⟨dot, .inl rfl, usualHost.convert, usualHost.casts, usualHost.holds⟩

/-- A new instance. -/
def freshJson : JsonModule := ⟨jsonCreateConfig, some ⟨List.replicate 1023 0, 1023, 0⟩⟩

theorem freshJson_reachable (rt : Runtime) : JsonReachable rt usualJsonHost freshJson :=
  .new (by decide +kernel)

/-- A heap whose only table is a list with a hole. -/
def holedHeap : Heap :=
  (default : Heap).alloc
    (.ofFields [(.number (.finite 1), .string (bytes "a/b")), (.number (.finite 3), .boolean true)])

theorem holedHeap_doubles : holedHeap.Doubles := by
  have one : (Number.finite 1).IsDouble :=
    ⟨0x3ff0000000000000, by decide +kernel, by rw [abs_one]; decide +kernel⟩
  have three : (Number.finite 3).IsDouble :=
    ⟨0x4008000000000000, by decide +kernel, by rw [abs_of_nonneg (by decide)]; decide +kernel⟩
  intro addr entry member
  by_cases zero : addr = 0
  · subst zero
    have entries : (holedHeap.cells 0).entries.entries =
        [⟨.number (.finite 3), .boolean true⟩, ⟨.number (.finite 1), .string (bytes "a/b")⟩] := by
      decide +kernel
    rw [entries] at member
    simp only [List.mem_cons, List.not_mem_nil, or_false] at member
    rcases member with rfl | rfl
    · exact ⟨fun num same => by cases same; exact three, fun num same => by cases same⟩
    · exact ⟨fun num same => by cases same; exact one, fun num same => by cases same⟩
  · have none : (holedHeap.cells addr).entries.entries = [] := by
      rw [holedHeap, Heap.alloc_of_ne _ _ zero]
      rfl
    rw [none] at member
    cases member

theorem freshJson_writable : freshJson.Writable usualJsonHost holedHeap (.table 0) where
  doubles := holedHeap_doubles
  double num same := by cases same
  short := by decide +kernel

/-- After any calls `json_encode` returns the compact text of the tree that its argument
describes, or raises the error that keeps it from having one: what was encoded before, and how it
ended, makes no difference, and no buffer is overrun. -/
theorem jsonEncode_of_reachable (reachable : JsonReachable rt host json)
    (writable : json.Writable host heap value) : (jsonEncode host heap json [value]).1 =
      (jsonTree host json.cfg heap json.cfg.encodeMaxDepth 0 1 value).map (jsonText json.cfg) :=
  jsonEncode_eq reachable.ready writable

/-- An instance that takes lists with few elements for objects. -/
def sparseJson : JsonModule :=
  (JsonSetting.encodeSparseArray.function .plain usualJsonHost
    [.boolean true, .number (.finite 1), .number (.finite 2)] freshJson).2

/-- Then a function was to be encoded. -/
def usedJson : JsonModule :=
  { sparseJson with
    encodeBuf := (jsonEncode usualJsonHost holedHeap sparseJson [.function (.closure 0)]).2 }

theorem usedJson_reachable : JsonReachable .plain usualJsonHost usedJson := by
  refine .encode holedHeap _ (.configure .encodeSparseArray _ (freshJson_reachable .plain)) ?_
  intro value same
  obtain rfl : Value.function (.closure 0) = value := (List.cons.inj same).1
  exact
    { doubles := holedHeap_doubles
      double := fun num same => by cases same
      short := by decide +kernel }

/-- The list with a hole can be written by it. -/
theorem usedJson_writable : usedJson.Writable usualJsonHost holedHeap (.table 0) where
  doubles := holedHeap_doubles
  double num same := by cases same
  short := by decide +kernel

/-- After a setting was changed and an encoding failed, a list with a hole is an object. -/
theorem jsonEncode_used : (jsonEncode usualJsonHost holedHeap usedJson [.table 0]).1 =
    .ok (bytes "\x7b\"3\":true,\"1\":\"a\\/b\"\x7d") :=
  (jsonEncode_of_reachable usedJson_reachable usedJson_writable).trans (by decide +kernel)

/-- Unless infinities and NaN are written, what `json_encode` returns is JSON, and says what its
argument describes up to the digits that are written. -/
theorem spells_jsonEncode (reachable : JsonReachable rt host json)
    (writable : json.Writable host heap value) (proper : json.cfg.encodeInvalidNumbers ≠ .on)
    {text : Bytes} (encoded : (jsonEncode host heap json [value]).1 = .ok text) :
    ∃ tree, jsonTree host json.cfg heap json.cfg.encodeMaxDepth 0 1 value = .ok tree ∧
      Json.Spells jsonDialect (tree.map (jsonRounded json.cfg)) text := by
  rw [jsonEncode_eq reachable.ready writable] at encoded
  cases described : jsonTree host json.cfg heap json.cfg.encodeMaxDepth 0 1 value with
  | error stop =>
      rw [described] at encoded
      cases encoded
  | ok tree =>
      rw [described] at encoded
      cases encoded
      exact ⟨tree, rfl, spells_jsonText proper described⟩

/-- The text of the list with a hole is JSON. -/
theorem spells_holed : ∃ tree,
    jsonTree usualJsonHost jsonCreateConfig holedHeap 1000 0 1 (.table 0) = .ok tree ∧
      Json.Spells jsonDialect (tree.map (jsonRounded jsonCreateConfig))
        (bytes "[\"a\\/b\",null,true]") :=
  spells_jsonEncode (freshJson_reachable .plain) freshJson_writable (by decide)
    ((jsonEncode_eq (freshJson_reachable .plain).ready freshJson_writable).trans (by decide +kernel))

end Invariants

end ValkeyLuajit
