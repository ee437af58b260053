import ScriptPool.Config.Basic
import ScriptPool.Toml.Document
import ScriptPool.Toml.Writer

/-!
# Configurations as TOML

Each structure of the configuration has one table of `Setting`s, which says for every field under
which key and in which form it is stored.  Reading and writing are both driven by that table, so a
field cannot be written under one name and read under another.

Reading starts from the defaults and takes the entries of a document in their order, so the first
entry that does not fit is the one reported; keys without a setting are ignored.  An array is
accepted in place of a table and gives the settings by position.  Writing skips the settings that
are absent.
-/

set_option autoImplicit false

namespace ScriptPool
namespace Toml

/-- Why a document does not describe what it should. -/
inductive DecodeError where
  | wrongType (found expected : String)
  | wrongValue (found expected : String)
  | unknownVariant (found : String) (expected : List String)
  | notAVariant (message : String)
  | invalidDuration (text : String)
  deriving Repr, DecidableEq

/-- A word between backquotes. -/
def ticked (s : String) : String := "\x60" ++ s ++ "\x60"

/-- The wording of a decoding failure. -/
def DecodeError.message : DecodeError → String
  | .wrongType found expected => "invalid type: " ++ found ++ ", expected " ++ expected
  | .wrongValue found expected => "invalid value: " ++ found ++ ", expected " ++ expected
  | .unknownVariant found expected =>
      "unknown variant " ++ ticked found ++ ", expected one of "
        ++ ", ".intercalate (expected.map ticked)
  | .notAVariant message => message
  | .invalidDuration text => (ConfigError.invalidDuration text).message

/-- Floats in messages: as plain numbers, with a point. -/
def messageNumber : Decimal.Layout := ⟨none, true, false, "NaN", "inf"⟩

/-- How a value is called in messages. -/
def Item.describe : Item → String
  | .string s => "string " ++ Text.quote s
  | .integer n => "integer " ++ ticked (toString n)
  | .float x => "floating point " ++ ticked (messageNumber.write x)
  | .boolean b => "boolean " ++ ticked (if b then "true" else "false")
  | .datetime => "map"
  | .array _ => "sequence"
  | .table _ => "map"

/-- Why a configuration cannot be written. -/
inductive EncodeError where
  /-- An integer is beyond the range of TOML. -/
  | outOfRange
  deriving Repr, DecidableEq

/-- The wording of an encoding failure. -/
def EncodeError.message : EncodeError → String
  | .outOfRange => "out-of-range value for u64 type"

/-! ## Forms -/

/-- How a type is stored. -/
structure Form (α : Type) where
  decode : Item → Except DecodeError α
  encode : α → Except EncodeError Item

namespace Form

/-- Natural numbers below `2^bits`; `expected` names the range in messages. -/
def natural (bits : Nat) (expected : String) : Form Nat where
  decode
    | .integer n =>
        if 0 ≤ n && n < 2 ^ bits then .ok n.toNat
        else .error (.wrongValue (Item.integer n).describe expected)
    | item => .error (.wrongType item.describe expected)
  encode n := if n < 2 ^ 63 then .ok (.integer n) else .error .outOfRange

/-- Sizes and counts. -/
def size : Form Nat := natural 64 "usize"

/-- Counters. -/
def counter : Form Nat := natural 64 "u64"

/-- Small counters. -/
def smallCounter : Form Nat := natural 32 "u32"

/-- Floats; integers are accepted as well. -/
def float : Form Float where
  decode
    | .float x => .ok x
    | .integer n => .ok (Float.ofInt n)
    | item => .error (.wrongType item.describe "f64")
  encode x := .ok (.float x)

/-- Switches. -/
def boolean : Form Bool where
  decode
    | .boolean b => .ok b
    | item => .error (.wrongType item.describe "a boolean")
  encode b := .ok (.boolean b)

/-- Texts. -/
def string : Form String where
  decode
    | .string s => .ok s
    | item => .error (.wrongType item.describe "a string")
  encode s := .ok (.string s)

/-- Spans of time, as texts. -/
def duration : Form Duration where
  decode item := do
    let text ← string.decode item
    match Duration.parse text with
    | .ok d => .ok d
    | .error trimmed => .error (.invalidDuration trimmed)
  encode d := .ok (.string d.format)

/-- The level of a name. -/
def levelOfName (name : String) : Except DecodeError SecurityLevel :=
  match SecurityLevel.all.find? (·.name == name) with
  | some level => .ok level
  | none => .error (.unknownVariant name (SecurityLevel.all.map (·.name)))

/-- Security levels: a name, or a table with the name as its only key and nothing under it. -/
def securityLevel : Form SecurityLevel where
  decode
    | .string s => levelOfName s
    | .table [] => .error (.notAVariant "wanted exactly 1 element, found 0 elements")
    | .table [(name, content)] => do
        let level ← levelOfName name
        match content with
        | .table [] => .ok level
        | .array [] => .ok level
        | .table _ => .error (.notAVariant "expected empty table")
        | .array _ => .error (.notAVariant "expected empty table")
        | .string _ => .error (.notAVariant "expected table, found string")
        | .integer _ => .error (.notAVariant "expected table, found integer")
        | .float _ => .error (.notAVariant "expected table, found float")
        | .boolean _ => .error (.notAVariant "expected table, found boolean")
        | .datetime => .error (.notAVariant "expected table, found datetime")
    | .table _ => .error (.notAVariant "wanted exactly 1 element, more than 1 element")
    | _ => .error (.notAVariant "wanted string or table")
  encode level := .ok (.string level.name)

end Form

/-! ## Settings -/

/-- A field of `σ` under its key. -/
structure Setting (σ : Type) where
  key : String
  /-- Takes a value into the structure. -/
  decode : Item → σ → Except DecodeError σ
  /-- The value to write, unless the field is absent. -/
  encode : σ → Except EncodeError (Option Item)

namespace Setting

variable {σ α : Type}

/-- A field that is always present. -/
def required (key : String) (form : Form α) (get : σ → α) (set : α → σ → σ) : Setting σ where
  key
  decode item s := (form.decode item).map fun a => set a s
  encode s := (form.encode (get s)).map some

/-- A field that may be absent. -/
def optional (key : String) (form : Form α) (get : σ → Option α) (set : Option α → σ → σ) :
    Setting σ where
  key
  decode item s := (form.decode item).map fun a => set (some a) s
  encode s :=
    match get s with
    | none => .ok none
    | some a => (form.encode a).map some

end Setting

section Tables

variable {σ : Type}

/-- Takes the entries of a table into a structure, in their order. -/
def decodeEntries (settings : List (Setting σ)) : Entries → σ → Except DecodeError σ
  | [], s => .ok s
  | (key, item) :: rest, s =>
      match settings.find? (·.key == key) with
      | none => decodeEntries settings rest s
      | some setting => do
          let s ← setting.decode item s
          decodeEntries settings rest s

/-- Takes the elements of an array into a structure, by position. -/
def decodeElements : List (Setting σ) → List Item → σ → Except DecodeError σ
  | setting :: settings, item :: items, s => do
      let s ← setting.decode item s
      decodeElements settings items s
  | _, _, s => .ok s

/-- The entries to write for a structure. -/
def encodeEntries (settings : List (Setting σ)) (s : σ) : Except EncodeError Entries :=
  match settings with
  | [] => .ok []
  | setting :: rest => do
      let item ← setting.encode s
      let entries ← encodeEntries rest s
      match item with
      | none => .ok entries
      | some item => .ok ((setting.key, item) :: entries)

/-- A structure as a table; `name` is for messages. -/
def Form.table (name : String) (settings : List (Setting σ)) (default : σ) : Form σ where
  decode
    | .table entries => decodeEntries settings entries default
    | .array items => decodeElements settings items default
    | item => .error (.wrongType item.describe ("struct " ++ name))
  encode s := (encodeEntries settings s).map .table

end Tables

/-! ## The settings of the configuration -/

open Setting in
/-- Resource limits. -/
def limitSettings : List (Setting ResourceLimits) :=
  [ required "security" .securityLevel (·.security) fun a s => { s with security := a },
    required "memory_limit" .size (·.memoryLimit) fun a s => { s with memoryLimit := a },
    required "instruction_limit" .counter (·.instructionLimit)
      fun a s => { s with instructionLimit := a },
    required "hook_interval" .smallCounter (·.hookInterval)
      fun a s => { s with hookInterval := a },
    optional "max_duration" .duration (·.maxDuration) fun a s => { s with maxDuration := a },
    optional "init_script" .string (·.initScript) fun a s => { s with initScript := a } ]

open Setting in
/-- Constants of the prediction. -/
def tunableSettings : List (Setting ScalingTunables) :=
  [ required "surge_ratio" .float (·.surgeRatio) fun a s => { s with surgeRatio := a },
    required "surge_boost" .float (·.surgeBoost) fun a s => { s with surgeBoost := a },
    required "high_variance" .float (·.highVariance) fun a s => { s with highVariance := a },
    required "low_variance" .float (·.lowVariance) fun a s => { s with lowVariance := a },
    required "threshold_step" .float (·.thresholdStep) fun a s => { s with thresholdStep := a },
    required "threshold_floor" .float (·.thresholdFloor) fun a s => { s with thresholdFloor := a },
    required "threshold_ceiling" .float (·.thresholdCeiling)
      fun a s => { s with thresholdCeiling := a },
    required "scale_down_fraction" .float (·.scaleDownFraction)
      fun a s => { s with scaleDownFraction := a },
    required "min_history" .size (·.minHistory) fun a s => { s with minHistory := a },
    required "request_window" .duration (·.requestWindow) fun a s => { s with requestWindow := a } ]

open Setting in
/-- The pool's settings. -/
def poolSettings : List (Setting PoolConfig) :=
  [ required "min_size" .size (·.minSize) fun a s => { s with minSize := a },
    required "max_size" .size (·.maxSize) fun a s => { s with maxSize := a },
    required "enable_predictive_scaling" .boolean (·.enablePredictiveScaling)
      fun a s => { s with enablePredictiveScaling := a },
    required "prediction_window_size" .size (·.predictionWindowSize)
      fun a s => { s with predictionWindowSize := a },
    required "prediction_interval" .duration (·.predictionInterval)
      fun a s => { s with predictionInterval := a },
    required "scale_up_threshold" .float (·.scaleUpThreshold)
      fun a s => { s with scaleUpThreshold := a },
    required "scale_down_threshold" .float (·.scaleDownThreshold)
      fun a s => { s with scaleDownThreshold := a },
    required "max_predicted_scale_up" .size (·.maxPredictedScaleUp)
      fun a s => { s with maxPredictedScaleUp := a },
    required "enable_adaptive_thresholds" .boolean (·.enableAdaptiveThresholds)
      fun a s => { s with enableAdaptiveThresholds := a },
    required "enable_pre_warming" .boolean (·.enablePreWarming)
      fun a s => { s with enablePreWarming := a },
    required "pre_warm_on_init" .size (·.preWarmOnInit) fun a s => { s with preWarmOnInit := a },
    optional "pre_warm_script" .string (·.preWarmScript) fun a s => { s with preWarmScript := a },
    required "pre_warm_timeout" .duration (·.preWarmTimeout)
      fun a s => { s with preWarmTimeout := a },
    required "enable_memory_pooling" .boolean (·.enableMemoryPooling)
      fun a s => { s with enableMemoryPooling := a },
    required "memory_pool_size" .size (·.memoryPoolSize) fun a s => { s with memoryPoolSize := a },
    required "memory_block_size" .size (·.memoryBlockSize)
      fun a s => { s with memoryBlockSize := a },
    required "enable_load_balancing" .boolean (·.enableLoadBalancing)
      fun a s => { s with enableLoadBalancing := a },
    optional "acquire_timeout" .duration (·.acquireTimeout)
      fun a s => { s with acquireTimeout := a },
    optional "max_uses" .counter (·.maxUses) fun a s => { s with maxUses := a },
    required "idle_timeout" .duration (·.idleTimeout) fun a s => { s with idleTimeout := a },
    required "health_threshold" .float (·.healthThreshold)
      fun a s => { s with healthThreshold := a },
    required "cleanup_interval" .duration (·.cleanupInterval)
      fun a s => { s with cleanupInterval := a },
    required "limits" (.table "ResourceLimits" limitSettings {}) (·.limits)
      fun a s => { s with limits := a },
    required "tunables" (.table "ScalingTunables" tunableSettings {}) (·.tunables)
      fun a s => { s with tunables := a } ]

end Toml

/-- Why a text is not a configuration. -/
inductive ConfigTextError where
  /-- It is not TOML. -/
  | syntactic
  /-- It is TOML, but some setting has the wrong form. -/
  | data (cause : Toml.DecodeError)
  deriving Repr, DecidableEq

namespace PoolConfig

/-- Takes the entries of a document over a configuration. -/
def overriddenBy (c : PoolConfig) (entries : Toml.Entries) : Except Toml.DecodeError PoolConfig :=
  Toml.decodeEntries Toml.poolSettings entries c

/-- The configuration that a document describes. -/
def ofEntries (entries : Toml.Entries) : Except Toml.DecodeError PoolConfig :=
  overriddenBy {} entries

/-- The document that describes a configuration. -/
def toEntries (c : PoolConfig) : Except Toml.EncodeError Toml.Entries :=
  Toml.encodeEntries Toml.poolSettings c

/-- Reads a configuration. -/
def ofText (text : String) : Except ConfigTextError PoolConfig :=
  match Toml.parse? text with
  | none => .error .syntactic
  | some entries =>
      match ofEntries entries with
      | .ok c => .ok c
      | .error cause => .error (.data cause)

/-- Writes a configuration. -/
def toText (c : PoolConfig) : Except Toml.EncodeError String := c.toEntries.map Toml.write

end PoolConfig
end ScriptPool
