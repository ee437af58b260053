import ScriptPool.Config.Toml
import ScriptPool.Proofs.Duration
import ScriptPool.Proofs.Results
import ScriptPool.Proofs.Toml.Document

/-!
# Configurations are read back

Reading takes the entries of a document one after the other into the defaults, so what is read back
is what each setting carries over from the configuration that was written.  A setting that is absent
carries nothing over, and the default in its place is absent as well.

## What is here

* `Form.Stores` — a value is written in a form from which it is read back.
* `Setting.Carries` — what reading changes, given what was written under one setting.
* `exists_entries` — what a whole table of settings writes and carries over.
* `PoolConfig.IsStorable` — every number of a configuration fits the form it is stored in.
* `PoolConfig.ofText_toText` — **a storable configuration is written, and read back as it was.**
-/

set_option autoImplicit false

namespace ScriptPool
namespace Toml

/-! ## Forms -/

section Forms

variable {α : Type}

/-- A value is written as an item of the kind `P`, and read back from it. -/
def Form.Stores (form : Form α) (P : Item → Prop) (a : α) : Prop :=
  ∃ item, form.encode a = .ok item ∧ form.decode item = .ok a ∧ P item

theorem stores_natural {bits n : Nat} (expected : String) (hn : n < 2 ^ 63) (hbits : n < 2 ^ bits) :
    (Form.natural bits expected).Stores Item.IsPlain n := by
  refine ⟨.integer n, if_pos hn, ?_, ?_⟩
  · have hrange : (decide (0 ≤ (n : Int)) && decide ((n : Int) < 2 ^ bits)) = true :=
      Bool.and_eq_true_iff.2 ⟨decide_eq_true (Int.natCast_nonneg n),
        decide_eq_true (by exact_mod_cast hbits)⟩
    exact if_pos hrange
  · show inRange n = true
    have hlow : (-(2 ^ 63) : Int) ≤ n := by omega
    have hhigh : (n : Int) < 2 ^ 63 := by omega
    exact Bool.and_eq_true_iff.2 ⟨decide_eq_true hlow, decide_eq_true hhigh⟩

/-- A number in sixty-four bits is stored if the sign bit is clear. -/
theorem stores_size {n : Nat} (expected : String) (hn : n < 2 ^ 63) :
    (Form.natural 64 expected).Stores Item.IsPlain n :=
  stores_natural expected hn (by omega)

theorem stores_float {x : Float} (h : x.isNaN = false) : Form.float.Stores Item.IsPlain x :=
  ⟨.float x, rfl, rfl, h⟩

theorem stores_boolean (b : Bool) : Form.boolean.Stores Item.IsPlain b :=
  ⟨.boolean b, rfl, rfl, trivial⟩

theorem stores_string (s : String) : Form.string.Stores Item.IsPlain s :=
  ⟨.string s, rfl, rfl, trivial⟩

theorem stores_duration {d : Duration} (hwhole : d.nanos % 1000000 = 0)
    (hbound : d.millis < Duration.bound) : Form.duration.Stores Item.IsPlain d := by
  refine ⟨.string d.format, rfl, ?_, trivial⟩
  simp only [Form.duration, Form.string, bind, Except.bind, Duration.parse_format hwhole hbound]

theorem stores_securityLevel (level : SecurityLevel) :
    Form.securityLevel.Stores Item.IsPlain level :=
  ⟨.string level.name, rfl, by cases level <;> rfl, trivial⟩

end Forms

/-! ## Settings

A table of settings is written entry by entry, and reading it changes one field after the other.  So
it is enough to know of each setting what it carries over, and that the changes together make up the
whole. -/

section Settings

variable {σ α : Type} {P : Item → Prop} {s : σ}

/-- What was written of `s` under a setting, reading carries into another structure as `change`. -/
def Setting.Carries (setting : Setting σ) (P : Item → Prop) (s : σ) (change : σ → σ) : Prop :=
  (setting.encode s = .ok none ∧ change = id)
    ∨ ∃ item, setting.encode s = .ok (some item) ∧ P item
        ∧ ∀ t, setting.decode item t = .ok (change t)

theorem carries_required {key : String} {form : Form α} {get : σ → α} {set : α → σ → σ}
    (h : form.Stores P (get s)) :
    (Setting.required key form get set).Carries P s (set (get s)) := by
  obtain ⟨item, hencode, hdecode, hitem⟩ := h
  refine .inr ⟨item, ?_, hitem, fun t => ?_⟩
  · show (form.encode (get s)).map some = _
    rw [hencode]
    rfl
  · show (form.decode item).map (fun a => set a t) = _
    rw [hdecode]
    rfl

/-- A field that may be absent is overwritten only by one that is present. -/
def overwrite (set : Option α → σ → σ) : Option α → σ → σ
  | none => id
  | some a => set (some a)

theorem carries_optional {key : String} {form : Form α} {get : σ → Option α}
    {set : Option α → σ → σ} (h : ∀ a, get s = some a → form.Stores P a) :
    (Setting.optional key form get set).Carries P s (overwrite set (get s)) := by
  cases hget : get s with
  | none =>
    refine .inl ⟨?_, rfl⟩
    show (match get s with
      | none => Except.ok none
      | some a => (form.encode a).map some) = _
    rw [hget]
  | some a =>
    obtain ⟨item, hencode, hdecode, hitem⟩ := h a hget
    refine .inr ⟨item, ?_, hitem, fun t => ?_⟩
    · show (match get s with
        | none => Except.ok none
        | some a => (form.encode a).map some) = _
      rw [hget]
      dsimp only
      rw [hencode]
      rfl
    · show (form.decode item).map (fun a => set (some a) t) = _
      rw [hdecode]
      rfl

/-- The changes of several settings, one after the other. -/
def applied (changes : List (σ → σ)) (t : σ) : σ := changes.foldl (fun t change => change t) t

theorem find?_key {all : List (Setting σ)} (hall : (all.map (·.key)).Nodup) {setting : Setting σ}
    (h : setting ∈ all) : all.find? (·.key == setting.key) = some setting := by
  induction all with
  | nil => exact absurd h List.not_mem_nil
  | cons first rest ih =>
    obtain ⟨hfirst, hrest⟩ := List.nodup_cons.1 hall
    rw [List.find?_cons]
    rcases List.mem_cons.1 h with rfl | hmem
    · rw [beq_self_eq_true]
    · have hne : first.key ≠ setting.key := fun heq =>
        hfirst (List.mem_map.2 ⟨setting, hmem, heq.symm⟩)
      rw [beq_eq_false_iff_ne.2 hne]
      exact ih hrest hmem

/-- What a table of settings writes has one entry for each setting that is present, and reading
carries over what each of them carries over. -/
theorem exists_entries {all : List (Setting σ)} (hall : (all.map (·.key)).Nodup)
    {settings : List (Setting σ)} {changes : List (σ → σ)}
    (h : List.Forall₂ (fun setting change => setting.Carries P s change) settings changes) :
    (∀ setting ∈ settings, setting ∈ all) →
      ∃ entries, encodeEntries settings s = .ok entries ∧ (∀ entry ∈ entries, P entry.2)
        ∧ (entries.map (·.1)).Sublist (settings.map (·.key))
        ∧ ∀ rest t, decodeEntries all (entries ++ rest) t
          = decodeEntries all rest (applied changes t) := by
  induction h with
  | nil => exact fun _ => ⟨[], rfl, fun _ h => absurd h List.not_mem_nil, .slnil, fun _ _ => rfl⟩
  | @cons setting change settings changes hcarries _ ih =>
    intro hmem
    obtain ⟨entries, hencode, hitems, hkeys, hdecode⟩ :=
      ih fun other hother => hmem other (List.mem_cons_of_mem _ hother)
    rcases hcarries with ⟨hnone, rfl⟩ | ⟨item, hsome, hitem, hread⟩
    · refine ⟨entries, ?_, hitems, hkeys.cons _, hdecode⟩
      rw [encodeEntries, hnone, hencode]
      rfl
    · refine ⟨(setting.key, item) :: entries, ?_, ?_, hkeys.cons_cons _, fun rest t => ?_⟩
      · rw [encodeEntries, hsome, hencode]
        rfl
      · intro entry hentry
        rcases List.mem_cons.1 hentry with rfl | hentry
        · exact hitem
        · exact hitems entry hentry
      · rw [List.cons_append, decodeEntries, find?_key hall (hmem setting List.mem_cons_self)]
        show (setting.decode item t >>= decodeEntries all (entries ++ rest)) = _
        rw [hread]
        exact hdecode rest (change t)

theorem encodeEntries_append {a b : List (Setting σ)} {xs ys : Entries}
    (ha : encodeEntries a s = .ok xs) (hb : encodeEntries b s = .ok ys) :
    encodeEntries (a ++ b) s = .ok (xs ++ ys) := by
  induction a generalizing xs with
  | nil =>
    cases ha
    exact hb
  | cons setting a ih =>
    rw [encodeEntries] at ha
    obtain ⟨item, hitem, ha⟩ := bind_eq_ok.1 ha
    obtain ⟨entries, hentries, ha⟩ := bind_eq_ok.1 ha
    rw [List.cons_append, encodeEntries, hitem, ih hentries]
    cases item with
    | none =>
      cases ha
      rfl
    | some item =>
      cases ha
      rfl

/-- An item that is written as a section of its own. -/
def Item.IsSection (item : Item) : Prop := ∃ entries, item = .table entries ∧ Plain entries

/-- A structure is stored if its settings are, and reading them into the defaults gives it back. -/
theorem stores_table {name : String} {settings : List (Setting σ)} {default : σ}
    {changes : List (σ → σ)} (hkeys : (settings.map (·.key)).Nodup)
    (hbare : ∀ setting ∈ settings, IsBare setting.key)
    (h : List.Forall₂ (fun setting change => setting.Carries Item.IsPlain s change) settings
      changes)
    (happlied : applied changes default = s) :
    (Form.table name settings default).Stores Item.IsSection s := by
  obtain ⟨entries, hencode, hitems, hsub, hdecode⟩ := exists_entries hkeys h fun _ h => h
  have hplain : Plain entries := by
    refine ⟨fun entry hentry => ?_, hitems, hkeys.sublist hsub⟩
    obtain ⟨setting, hsetting, hkey⟩ := List.mem_map.1 (hsub.subset (List.mem_map_of_mem hentry))
    rw [← hkey]
    exact hbare setting hsetting
  refine ⟨.table entries, ?_, ?_, entries, rfl, hplain⟩
  · show (encodeEntries settings s).map Item.table = _
    rw [hencode]
    rfl
  · show decodeEntries settings entries default = _
    have hread := hdecode [] default
    rw [List.append_nil] at hread
    rw [hread, happlied]
    rfl

/-- Entries that are sections are the sections of some tables. -/
theorem exists_parts {entries : Entries} (h : ∀ entry ∈ entries, entry.2.IsSection) :
    ∃ parts, entries = sections parts ∧ ∀ part ∈ parts, Plain part.2 := by
  induction entries with
  | nil => exact ⟨[], rfl, fun _ h => absurd h List.not_mem_nil⟩
  | cons entry entries ih =>
    obtain ⟨key, item⟩ := entry
    obtain ⟨inner, rfl, hinner⟩ : ∃ inner, item = .table inner ∧ Plain inner :=
      h (key, item) List.mem_cons_self
    obtain ⟨parts, rfl, hparts⟩ := ih fun entry hentry => h entry (List.mem_cons_of_mem _ hentry)
    refine ⟨(key, inner) :: parts, rfl, fun part hpart => ?_⟩
    rcases List.mem_cons.1 hpart with rfl | hpart
    · exact hinner
    · exact hparts part hpart

end Settings

end Toml

/-! ## The settings of the configuration

What can be stored is said for each field: integers have to fit those of TOML, and floats have to be
numbers.  Durations are stored in milliseconds, so nothing finer is kept. -/

/-- The span is a number of milliseconds that fits sixty-four bits. -/
def Duration.IsStorable (d : Duration) : Prop := d.nanos % 1000000 = 0 ∧ d.millis < 2 ^ 64

/-- The sizes fit the integers of TOML, and the interval its own thirty-two bits. -/
structure ResourceLimits.IsStorable (limits : ResourceLimits) : Prop where
  memoryLimit : limits.memoryLimit < 2 ^ 63
  instructionLimit : limits.instructionLimit < 2 ^ 63
  hookInterval : limits.hookInterval < 2 ^ 32
  maxDuration : ∀ d, limits.maxDuration = some d → d.IsStorable

/-- The floats are numbers, and the rest fits. -/
structure ScalingTunables.IsStorable (t : ScalingTunables) : Prop where
  floats : ∀ x ∈ [t.surgeRatio, t.surgeBoost, t.highVariance, t.lowVariance, t.thresholdStep,
    t.thresholdFloor, t.thresholdCeiling, t.scaleDownFraction], x.isNaN = false
  minHistory : t.minHistory < 2 ^ 63
  requestWindow : t.requestWindow.IsStorable

/-- Every number of the configuration fits the form in which it is stored. -/
structure PoolConfig.IsStorable (c : PoolConfig) : Prop where
  sizes : ∀ n ∈ [c.minSize, c.maxSize, c.predictionWindowSize, c.maxPredictedScaleUp,
    c.preWarmOnInit, c.memoryPoolSize, c.memoryBlockSize], n < 2 ^ 63
  maxUses : ∀ n, c.maxUses = some n → n < 2 ^ 63
  durations : ∀ d ∈ [c.predictionInterval, c.preWarmTimeout, c.idleTimeout, c.cleanupInterval],
    d.IsStorable
  acquireTimeout : ∀ d, c.acquireTimeout = some d → d.IsStorable
  floats : ∀ x ∈ [c.scaleUpThreshold, c.scaleDownThreshold, c.healthThreshold], x.isNaN = false
  limits : c.limits.IsStorable
  tunables : c.tunables.IsStorable

section Stored

open Toml

theorem Duration.IsStorable.stores {d : Duration} (h : d.IsStorable) :
    Form.duration.Stores Item.IsPlain d := stores_duration h.1 h.2

theorem isBare_limitSettings : ∀ setting ∈ limitSettings, IsBare setting.key := by
  decide +kernel

theorem isBare_tunableSettings : ∀ setting ∈ tunableSettings, IsBare setting.key := by
  decide +kernel

theorem isBare_poolSettings : ∀ setting ∈ poolSettings, IsBare setting.key := by
  decide +kernel

theorem ResourceLimits.IsStorable.stores {limits : ResourceLimits} (h : limits.IsStorable) :
    (Form.table "ResourceLimits" limitSettings {}).Stores Item.IsSection limits := by
  have hinterval : limits.hookInterval < 2 ^ 63 := Nat.lt_trans h.hookInterval (by decide)
  refine stores_table (s := limits) (by decide) isBare_limitSettings
    (.cons (carries_required (stores_securityLevel _)) <|
      .cons (carries_required (stores_size _ h.memoryLimit)) <|
      .cons (carries_required (stores_size _ h.instructionLimit)) <|
      .cons (carries_required (stores_natural _ hinterval h.hookInterval)) <|
      .cons (carries_optional fun d hd => (h.maxDuration d hd).stores) <|
      .cons (carries_optional fun text _ => stores_string text) .nil) ?_
  obtain ⟨level, memory, instructions, interval, duration, script⟩ := limits
  cases duration <;> cases script <;> rfl

theorem ScalingTunables.IsStorable.stores {t : ScalingTunables} (h : t.IsStorable) :
    (Form.table "ScalingTunables" tunableSettings {}).Stores Item.IsSection t := by
  have hfloats := h.floats
  simp only [List.forall_mem_cons] at hfloats
  obtain ⟨hratio, hboost, hhigh, hlow, hstep, hfloor, hceiling, hfraction, -⟩ := hfloats
  exact stores_table (s := t) (by decide) isBare_tunableSettings
    (.cons (carries_required (stores_float hratio)) <|
      .cons (carries_required (stores_float hboost)) <|
      .cons (carries_required (stores_float hhigh)) <|
      .cons (carries_required (stores_float hlow)) <|
      .cons (carries_required (stores_float hstep)) <|
      .cons (carries_required (stores_float hfloor)) <|
      .cons (carries_required (stores_float hceiling)) <|
      .cons (carries_required (stores_float hfraction)) <|
      .cons (carries_required (stores_size _ h.minHistory)) <|
      .cons (carries_required h.requestWindow.stores) .nil) rfl

/-- The settings that are written as lines. -/
theorem PoolConfig.IsStorable.carries_lines {c : PoolConfig} (h : c.IsStorable) :
    ∃ changes, List.Forall₂ (fun setting change => setting.Carries Item.IsPlain c change)
      (poolSettings.take 22) changes
        ∧ applied changes {} = { c with limits := {}, tunables := {} } := by
  have hsizes := h.sizes
  have hdurations := h.durations
  have hfloats := h.floats
  simp only [List.forall_mem_cons] at hsizes hdurations hfloats
  obtain ⟨hmin, hmax, hwindow, hpredicted, hinit, hpool, hblock, -⟩ := hsizes
  obtain ⟨hprediction, hwarm, hidle, hcleanup, -⟩ := hdurations
  obtain ⟨hup, hdown, hhealth, -⟩ := hfloats
  refine ⟨_, .cons (carries_required (stores_size _ hmin)) <|
    .cons (carries_required (stores_size _ hmax)) <|
    .cons (carries_required (stores_boolean _)) <|
    .cons (carries_required (stores_size _ hwindow)) <|
    .cons (carries_required hprediction.stores) <|
    .cons (carries_required (stores_float hup)) <|
    .cons (carries_required (stores_float hdown)) <|
    .cons (carries_required (stores_size _ hpredicted)) <|
    .cons (carries_required (stores_boolean _)) <|
    .cons (carries_required (stores_boolean _)) <|
    .cons (carries_required (stores_size _ hinit)) <|
    .cons (carries_optional fun text _ => stores_string text) <|
    .cons (carries_required hwarm.stores) <|
    .cons (carries_required (stores_boolean _)) <|
    .cons (carries_required (stores_size _ hpool)) <|
    .cons (carries_required (stores_size _ hblock)) <|
    .cons (carries_required (stores_boolean _)) <|
    .cons (carries_optional fun d hd => (h.acquireTimeout d hd).stores) <|
    .cons (carries_optional fun n hn => stores_size _ (h.maxUses n hn)) <|
    .cons (carries_required hidle.stores) <|
    .cons (carries_required (stores_float hhealth)) <|
    .cons (carries_required hcleanup.stores) .nil, ?_⟩
  cases c with
  | mk _ _ _ _ _ _ _ _ _ _ _ script _ _ _ _ _ timeout uses _ _ _ _ _ =>
    cases script <;> cases timeout <;> cases uses <;> rfl

/-- The settings that are written as sections. -/
theorem PoolConfig.IsStorable.carries_sections {c : PoolConfig} (h : c.IsStorable) :
    ∃ changes, List.Forall₂ (fun setting change => setting.Carries Item.IsSection c change)
      (poolSettings.drop 22) changes
        ∧ applied changes { c with limits := {}, tunables := {} } = c :=
  ⟨_, .cons (carries_required h.limits.stores) <|
    .cons (carries_required h.tunables.stores) .nil, rfl⟩

/-- **A storable configuration is written, and read back as it was.** -/
theorem PoolConfig.ofText_toText {c : PoolConfig} (h : c.IsStorable) :
    ∃ text, c.toText = .ok text ∧ PoolConfig.ofText text = .ok c := by
  have hkeys : (poolSettings.map (·.key)).Nodup := by decide
  have hsplit : poolSettings = poolSettings.take 22 ++ poolSettings.drop 22 :=
    (List.take_append_drop 22 poolSettings).symm
  obtain ⟨changes, hlines, hmiddle⟩ := h.carries_lines
  obtain ⟨changes', hsections, hend⟩ := h.carries_sections
  obtain ⟨plain, hplain, hitems, hsub, hdecode⟩ :=
    exists_entries hkeys hlines fun _ hs => List.mem_of_mem_take hs
  obtain ⟨tables, htables, hitems', hsub', hdecode'⟩ :=
    exists_entries hkeys hsections fun _ hs => List.mem_of_mem_drop hs
  obtain ⟨parts, rfl, hparts⟩ := exists_parts hitems'
  have hparts_keys : (sections parts).map (·.1) = parts.map (·.1) := by
    rw [sections, List.map_map]
    rfl
  have hkeys' : (plain.map (·.1) ++ parts.map (·.1)).Sublist (poolSettings.map (·.key)) := by
    rw [hsplit, List.map_append, ← hparts_keys]
    exact hsub.append hsub'
  have hbare : ∀ key ∈ plain.map (·.1) ++ parts.map (·.1), IsBare key := by
    intro key hkey
    obtain ⟨setting, hsetting, rfl⟩ := List.mem_map.1 (hkeys'.subset hkey)
    exact isBare_poolSettings setting hsetting
  have hentries : Plain plain := by
    refine ⟨fun entry hentry => hbare _ ?_, hitems, ?_⟩
    · exact List.mem_append_left _ (List.mem_map_of_mem hentry)
    · exact (List.nodup_append.1 (hkeys.sublist hkeys')).1
  have hwrite : c.toEntries = .ok (plain ++ sections parts) := by
    rw [PoolConfig.toEntries, hsplit]
    exact encodeEntries_append hplain htables
  have hread : PoolConfig.ofEntries (plain ++ sections parts) = .ok c := by
    have hrest := hdecode' [] { c with limits := {}, tunables := {} }
    rw [List.append_nil] at hrest
    rw [PoolConfig.ofEntries, PoolConfig.overriddenBy, hdecode, hmiddle, hrest, hend]
    rfl
  refine ⟨write (plain ++ sections parts), ?_, ?_⟩
  · rw [PoolConfig.toText, hwrite]
    rfl
  · rw [PoolConfig.ofText, parse?_write hentries
      (fun part hpart => hbare _ (List.mem_append_right _ (List.mem_map_of_mem hpart))) hparts
      (hkeys.sublist hkeys')]
    dsimp only
    rw [hread]

/-- The configuration with a timeout, a limit and a script of two lines is read back. -/
theorem PoolConfig.ofText_toText_timeout :
    ∃ text, PoolConfig.toText
        { acquireTimeout := some (.ofMillis 1500), maxUses := some 3,
          preWarmScript := some "x = 'a'\nreturn \"b\"" } = .ok text
      ∧ PoolConfig.ofText text = .ok
        { acquireTimeout := some (.ofMillis 1500), maxUses := some 3,
          preWarmScript := some "x = 'a'\nreturn \"b\"" } := by
  refine PoolConfig.ofText_toText ⟨by decide, ?_, ?_, ?_, by decide +kernel,
    ⟨by decide, by decide, by decide, ?_⟩, ⟨by decide +kernel, by decide, ?_⟩⟩
  · intro n hn
    obtain rfl : 3 = n := Option.some.inj hn
    decide
  · intro d hd
    simp only [List.mem_cons, List.not_mem_nil, or_false] at hd
    rcases hd with rfl | rfl | rfl | rfl <;> exact ⟨by decide, by decide⟩
  · intro d hd
    obtain rfl : Duration.ofMillis 1500 = d := Option.some.inj hd
    exact ⟨by decide, by decide⟩
  · intro d hd
    cases hd
  · exact ⟨by decide, by decide⟩

end Stored

end ScriptPool
