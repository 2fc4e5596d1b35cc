import Mathlib.Data.Finset.Lattice.Lemmas
import Sshd4a.App.SshdSettings
import Sshd4a.Lib.Objects

/-!
# Loading and saving the values of settings

A setting with a value loads it from the preferences and passes the value it has, its default,
for the case that there is none under its key. Each kind does this in its own way.

A `MultiChoiceSetting` has a set that it never replaces. `load` passes the set itself as the
default, the preferences answer with that very object, and `setValue` clears it before it copies
what is in it by then: nothing. A `SingleChoiceSetting` has an index into its `entryValues`, and
looks for the loaded text with `equals`, which no other kind of `CharSequence` than `String`
answers with yes. `loadsOrKeeps_iff` says when loading is right, for all kinds.

`SharedPreferences` is not part of the app. What the code relies on is in `Preferences`: which
object is kept for a set, the one that was put or a copy, is left open.
-/

namespace Sshd4a

/-! ## The preferences -/

/-- What is stored under a key. A `float` is its bits. -/
inductive Stored
  | boolean (value : Bool)
  | float (bits : UInt32)
  | string (value : JString)
  | stringSet (values : Ref)

/-- The sets of strings there are, and what is stored. -/
structure PrefsState where
  sets : ObjectStore (Finset JString)
  stored : JString → Option Stored

/-- How the preferences keep a set: the object they keep has the strings of the one that was
    put. -/
structure Preferences where
  keep : ObjectStore (Finset JString) → Ref → ObjectStore (Finset JString) × Ref
  kept : ∀ sets r, r < sets.next → (keep sets r).1.content (keep sets r).2 = sets.content r
  made : ∀ sets r, r < sets.next → (keep sets r).2 < (keep sets r).1.next

/-- `EditorImpl.putStringSet` of Android makes a copy. -/
def copyingPreferences : Preferences where
  keep := fun sets r => sets.new (sets.content r)
  kept := fun sets _ _ => ObjectStore.content_new_self sets _
  made := fun sets _ _ => Nat.lt_succ_self sets.next

/-! ## `SharedPreferencesDataStore.java`

A value of another type than the one asked for is a `ClassCastException`, written `none`. -/

namespace PrefsState

def put (state : PrefsState) (key : JString) (value : Option Stored) : PrefsState :=
  { state with stored := Function.update state.stored key value }

def getString (state : PrefsState) (key : JString) (defValue : Option JString) :
    Option (Option JString) :=
  match state.stored key with
  | none => some defValue
  | some (.string value) => some (some value)
  | some _ => none

def putString (state : PrefsState) (key : JString) (value : Option JString) : PrefsState :=
  state.put key (value.map .string)

/-- The object that is stored, or the one that is passed. -/
def getStringSet (state : PrefsState) (key : JString) (defValues : Option Ref) :
    Option (Option Ref) :=
  match state.stored key with
  | none => some defValues
  | some (.stringSet values) => some (some values)
  | some _ => none

def putStringSet (android : Preferences) (state : PrefsState) (key : JString)
    (values : Option Ref) : PrefsState :=
  match values with
  | none => state.put key none
  | some r =>
    let kept := android.keep state.sets r
    { sets := kept.1, stored := Function.update state.stored key (some (.stringSet kept.2)) }

def getFloat (state : PrefsState) (key : JString) (defValue : Option UInt32) : Option UInt32 :=
  match state.stored key with
  | none => some (defValue.getD 0)
  | some (.float bits) => some bits
  | some _ => none

def putFloat (state : PrefsState) (key : JString) (value : Option UInt32) : PrefsState :=
  state.put key (value.map .float)

def getBoolean (state : PrefsState) (key : JString) (defValue : Option Bool) : Option Bool :=
  match state.stored key with
  | none => some (defValue.getD false)
  | some (.boolean value) => some value
  | some _ => none

def putBoolean (state : PrefsState) (key : JString) (value : Option Bool) : PrefsState :=
  state.put key (value.map .boolean)

end PrefsState

/-! ## The settings -/

structure BooleanSetting where
  key : JString
  checked : Bool

def BooleanSetting.load (s : BooleanSetting) (state : PrefsState) : Option BooleanSetting :=
  (state.getBoolean s.key (some s.checked)).map fun value => { s with checked := value }

def BooleanSetting.save (s : BooleanSetting) (state : PrefsState) : PrefsState :=
  state.putBoolean s.key (some s.checked)

structure FloatSetting where
  key : JString
  value : UInt32

def FloatSetting.load (s : FloatSetting) (state : PrefsState) : Option FloatSetting :=
  (state.getFloat s.key (some s.value)).map fun value => { s with value := value }

def FloatSetting.save (s : FloatSetting) (state : PrefsState) : PrefsState :=
  state.putFloat s.key (some s.value)

structure StringSetting where
  key : JString
  value : Option JString
  emptyIsNotSet : Bool

/-- `getValue`: an empty text can mean that there is none. -/
def StringSetting.getValue (s : StringSetting) : Option JString :=
  if s.emptyIsNotSet ∧ s.value = some [] then none else s.value

def StringSetting.load (s : StringSetting) (state : PrefsState) : Option StringSetting :=
  (state.getString s.key s.value).map fun value => { s with value := value }

def StringSetting.save (s : StringSetting) (state : PrefsState) : PrefsState :=
  state.putString s.key s.value

/-- A `CharSequence` is a `String` or something else with a text. -/
inductive CharSequence
  | string (text : JString)
  | other (text : JString)
deriving DecidableEq, Repr

namespace CharSequence

def toString : CharSequence → JString
  | string text => text
  | other text => text

/-- `equals` of a string. It is symmetric, and a `String` is equal to a `String` only. -/
def equalsString (c : CharSequence) (s : JString) : Bool :=
  match c with
  | string text => text == s
  | other _ => false

end CharSequence

structure SingleChoiceSetting where
  key : JString
  entryValues : Option (List CharSequence)
  checkedIndex : Int

namespace SingleChoiceSetting

/-- `entryValues[checkedIndex]`, unless the index is `NONE` or there are no entries: then
    it is `some none`. An index out of bounds is an exception. -/
def getValue (s : SingleChoiceSetting) : Option (Option CharSequence) :=
  if s.checkedIndex = -1 then some none
  else
    match s.entryValues with
    | none => some none
    | some entries =>
      if s.checkedIndex < 0 then none else (entries[s.checkedIndex.toNat]?).map some

/-- `setValue`; the index stays as it is if no entry is equal to the value. -/
def setValue (s : SingleChoiceSetting) (value : Option JString) : SingleChoiceSetting :=
  match value, s.entryValues with
  | some text, some entries =>
    match entries.findIdx? (fun c => c.equalsString text) with
    | some i => { s with checkedIndex := i }
    | none => s
  | _, _ => { s with checkedIndex := -1 }

def load (s : SingleChoiceSetting) (state : PrefsState) : Option SingleChoiceSetting :=
  match s.getValue with
  | none => none
  | some current => (state.getString s.key (current.map CharSequence.toString)).map s.setValue

def save (s : SingleChoiceSetting) (state : PrefsState) : Option PrefsState :=
  s.getValue.map fun current => state.putString s.key (current.map CharSequence.toString)

end SingleChoiceSetting

/-- The set is an object that is never replaced. -/
structure MultiChoiceSetting where
  key : JString
  value : Ref

namespace MultiChoiceSetting

/-- `setValue`: `clear`, and then `addAll` of what is in the other set by now. -/
def setValue (s : MultiChoiceSetting) (values : Option Ref) (sets : ObjectStore (Finset JString)) :
    ObjectStore (Finset JString) :=
  let cleared := sets.write s.value ∅
  match values with
  | none => cleared
  | some r =>
    if cleared.content r = ∅ then cleared
    else cleared.write s.value (cleared.content s.value ∪ cleared.content r)

def load (s : MultiChoiceSetting) (state : PrefsState) : Option PrefsState :=
  (state.getStringSet s.key (some s.value)).map fun values =>
    { state with sets := s.setValue values state.sets }

def save (android : Preferences) (s : MultiChoiceSetting) (state : PrefsState) : PrefsState :=
  state.putStringSet android s.key (some s.value)

end MultiChoiceSetting

/-! ## All kinds -/

/-- The value of a setting; a choice by its text. -/
inductive SettingValue
  | boolean (value : Bool)
  | float (bits : UInt32)
  | string (value : Option JString)
  | choice (value : Option JString)
  | set (values : Finset JString)

inductive ValueSetting
  | boolean (s : BooleanSetting)
  | float (s : FloatSetting)
  | string (s : StringSetting)
  | singleChoice (s : SingleChoiceSetting)
  | multiChoice (s : MultiChoiceSetting)

namespace ValueSetting

def load : ValueSetting → PrefsState → Option (ValueSetting × PrefsState)
  | boolean s, state => (s.load state).map fun s => (boolean s, state)
  | float s, state => (s.load state).map fun s => (float s, state)
  | string s, state => (s.load state).map fun s => (string s, state)
  | singleChoice s, state => (s.load state).map fun s => (singleChoice s, state)
  | multiChoice s, state => (s.load state).map fun state => (multiChoice s, state)

def save (android : Preferences) : ValueSetting → PrefsState → Option PrefsState
  | boolean s, state => some (s.save state)
  | float s, state => some (s.save state)
  | string s, state => some (s.save state)
  | singleChoice s, state => s.save state
  | multiChoice s, state => some (s.save android state)

/-- The value a setting has, if it is not an index out of bounds. -/
def value : ValueSetting → PrefsState → Option SettingValue
  | boolean s, _ => some (.boolean s.checked)
  | float s, _ => some (.float s.value)
  | string s, _ => some (.string s.value)
  | singleChoice s, _ => s.getValue.map fun c => .choice (c.map CharSequence.toString)
  | multiChoice s, state => some (.set (state.sets.content s.value))

/-- What `getValue` and `isChecked` answer. -/
def getValue : ValueSetting → PrefsState → Option SettingValue
  | string s, _ => some (.string s.getValue)
  | s, state => s.value state

end ValueSetting

/-- How a setting is built: its kind, its default, and what else `load` and `save` look at. -/
inductive Blueprint
  | boolean (checked : Bool)
  | float (value : UInt32)
  | string (value : Option JString) (emptyIsNotSet : Bool)
  | singleChoice (entryValues : Option (List CharSequence)) (checkedIndex : Int)
  | multiChoice (values : Finset JString)

namespace Blueprint

/-- A new setting. A multiple choice has a set of its own. -/
def build : Blueprint → JString → PrefsState → ValueSetting × PrefsState
  | boolean checked, key, state => (.boolean ⟨key, checked⟩, state)
  | float value, key, state => (.float ⟨key, value⟩, state)
  | string value emptyIsNotSet, key, state => (.string ⟨key, value, emptyIsNotSet⟩, state)
  | singleChoice entryValues checkedIndex, key, state =>
    (.singleChoice ⟨key, entryValues, checkedIndex⟩, state)
  | multiChoice values, key, state =>
    let made := state.sets.new values
    (.multiChoice ⟨key, made.2⟩, { state with sets := made.1 })

/-- A setting that is built the same way up to its value, and whose set exists. -/
def Builds (state : PrefsState) (key : JString) : Blueprint → ValueSetting → Prop
  | boolean _, .boolean s => s.key = key
  | float _, .float s => s.key = key
  | string _ emptyIsNotSet, .string s => s.key = key ∧ s.emptyIsNotSet = emptyIsNotSet
  | singleChoice entryValues _, .singleChoice s => s.key = key ∧ s.entryValues = entryValues
  | multiChoice _, .multiChoice s => s.key = key ∧ s.value < state.sets.next
  | _, _ => False

/-- The default. -/
def default : Blueprint → Option SettingValue
  | boolean checked => some (.boolean checked)
  | float value => some (.float value)
  | string value _ => some (.string value)
  | singleChoice entryValues checkedIndex =>
    (SingleChoiceSetting.getValue ⟨[], entryValues, checkedIndex⟩).map fun c =>
      .choice (c.map CharSequence.toString)
  | multiChoice values => some (.set values)

/-- The values of a setting that are not null; those of a choice are among its entries. -/
def HasValue : Blueprint → SettingValue → Prop
  | boolean _, .boolean _ => True
  | float _, .float _ => True
  | string _ _, .string value => value ≠ none
  | singleChoice entryValues _, .choice value =>
    ∃ c ∈ entryValues.getD [], value = some c.toString
  | multiChoice _, .set _ => True
  | _, _ => False

end Blueprint

/-- **What loading is to do**: without a stored value the default stays, and with one that was
    saved from such a setting this is the value. -/
structure LoadsOrKeeps (android : Preferences) (key : JString) (b : Blueprint) (d v : SettingValue) :
    Prop where
  keeps : ∀ state, state.stored key = none →
    ∃ s' state', (b.build key state).1.load (b.build key state).2 = some (s', state') ∧
      s'.value state' = some d ∧
      s'.getValue state' = (b.build key state).1.getValue (b.build key state).2
  loads : ∀ state saved, b.Builds state key saved → saved.value state = some v →
    ∃ stored s' state', saved.save android state = some stored ∧
      (b.build key stored).1.load (b.build key stored).2 = some (s', state') ∧
      s'.value state' = some v ∧ s'.getValue state' = saved.getValue state

/-- A multiple choice has no default, and a single choice has a `String` with the text of the
    value among its entries, or has the value by default. -/
def LoadsRight : Blueprint → SettingValue → SettingValue → Prop
  | .multiChoice values, _, _ => values = ∅
  | .singleChoice entryValues _, d, .choice (some text) =>
    .string text ∈ entryValues.getD [] ∨ d = .choice (some text)
  | _, _, _ => True

/-! ## The preferences give back what was put -/

section
variable {state : PrefsState} {key : JString}

theorem stored_put (state : PrefsState) (key : JString) (value : Option Stored) :
    (state.put key value).stored key = value := Function.update_self ..

theorem getString_absent (h : state.stored key = none) (defValue : Option JString) :
    state.getString key defValue = some defValue := by
  rw [PrefsState.getString, h]

theorem getString_put (state : PrefsState) (key text : JString) (defValue : Option JString) :
    (state.putString key (some text)).getString key defValue = some (some text) := by
  rw [PrefsState.getString, PrefsState.putString, stored_put]
  rfl

end

/-! ## A single choice -/

namespace SingleChoiceSetting

section
variable {s : SingleChoiceSetting} {entries : List CharSequence} {text : JString}

theorem equalsString_iff {c : CharSequence} : c.equalsString text = true ↔ c = .string text := by
  cases c with
  | string t => simp [CharSequence.equalsString]
  | other t => simp [CharSequence.equalsString]

/-- A `String` among the entries is found. -/
theorem getValue_setValue_of_mem (hentries : s.entryValues = some entries)
    (h : .string text ∈ entries) :
    (s.setValue (some text)).getValue = some (some (.string text)) := by
  cases hfind : entries.findIdx? (fun c => c.equalsString text) with
  | none =>
    have hnone := List.findIdx?_eq_none_iff.mp hfind _ h
    rw [equalsString_iff.mpr rfl] at hnone
    cases hnone
  | some i =>
    obtain ⟨hi, heq, -⟩ := List.findIdx?_eq_some_iff_getElem.mp hfind
    have hset : s.setValue (some text) = { s with checkedIndex := i } := by
      unfold setValue
      simp only [hentries, hfind]
    have hpos : ¬ ((i : Int) = -1) := by omega
    have hget : entries[i]? = some (.string text) := by
      rw [List.getElem?_eq_getElem hi, equalsString_iff.mp heq]
    rw [hset, getValue]
    simp only [hpos, if_false, hentries, Int.not_ofNat_neg, Int.toNat_natCast, hget, Option.map_some]

/-- Without one the index stays. -/
theorem setValue_of_notMem (hentries : s.entryValues = some entries)
    (h : .string text ∉ entries) : s.setValue (some text) = s := by
  have hfind : entries.findIdx? (fun c => c.equalsString text) = none := by
    rw [List.findIdx?_eq_none_iff]
    intro c hc
    rw [Bool.eq_false_iff]
    intro heq
    rw [equalsString_iff.mp heq] at hc
    exact h hc
  unfold setValue
  simp only [hentries, hfind]

/-- A choice is one of the entries. -/
theorem entryValues_of_getValue {c : CharSequence} (h : s.getValue = some (some c)) :
    ∃ entries, s.entryValues = some entries := by
  unfold getValue at h
  split at h
  · cases h
  · cases hentries : s.entryValues with
    | none =>
      rw [hentries] at h
      cases h
    | some entries => exact ⟨entries, rfl⟩

/-- Any entry can be chosen. -/
theorem exists_index (key : JString) {c : CharSequence} (h : c ∈ entries) :
    ∃ i : Nat, getValue ⟨key, some entries, i⟩ = some (some c) := by
  obtain ⟨i, hi, hget⟩ := List.getElem_of_mem h
  refine ⟨i, ?_⟩
  have hpos : ¬ ((i : Int) = -1) := by omega
  unfold getValue
  simp only [hpos, if_false, Int.not_ofNat_neg, Int.toNat_natCast, List.getElem?_eq_getElem hi,
    hget, Option.map_some]

/-- **What loading finds**: a text that a `String` among the entries has, or else the choice
    stays as it was. -/
theorem load_text {state : PrefsState} {current : Option CharSequence}
    (hcurrent : s.getValue = some current) (hentries : s.entryValues = some entries)
    (hstored : state.getString s.key (current.map CharSequence.toString) = some (some text)) :
    ∃ s', s.load state = some s' ∧
      s'.getValue.map (Option.map CharSequence.toString) =
        if .string text ∈ entries then some (some text)
        else some (current.map CharSequence.toString) := by
  refine ⟨s.setValue (some text), ?_, ?_⟩
  · rw [load, hcurrent]
    dsimp only
    rw [hstored]
    rfl
  · split
    · rename_i hmem
      rw [getValue_setValue_of_mem hentries hmem]
      rfl
    · rename_i hmem
      rw [setValue_of_notMem hentries hmem, hcurrent]
      rfl

end

end SingleChoiceSetting

/-! ## A multiple choice -/

namespace MultiChoiceSetting

section
variable (s : MultiChoiceSetting) (sets : ObjectStore (Finset JString))

/-- **Loading the set itself** leaves nothing: it was cleared before. -/
theorem content_setValue_self : (s.setValue (some s.value) sets).content s.value = ∅ := by
  have hcleared : (sets.write s.value ∅).content s.value = ∅ := sets.content_write_self s.value ∅
  unfold setValue
  simp only [hcleared, if_true]

theorem content_setValue_of_ne {r : Ref} (h : r ≠ s.value) :
    (s.setValue (some r) sets).content s.value = sets.content r := by
  have hcleared : (sets.write s.value ∅).content s.value = ∅ := sets.content_write_self s.value ∅
  have hother : (sets.write s.value ∅).content r = sets.content r := sets.content_write_of_ne h ∅
  unfold setValue
  simp only [hother]
  split
  · rename_i hempty
    rw [hcleared, hempty]
  · rw [ObjectStore.content_write_self, hcleared, Finset.empty_union]

end

end MultiChoiceSetting

/-! ## Each kind -/

section
variable {android : Preferences} {key : JString} {v : SettingValue}

theorem loadsOrKeeps_boolean (checked : Bool) :
    LoadsOrKeeps android key (.boolean checked) (.boolean checked) v where
  keeps := by
    intro state habsent
    refine ⟨.boolean ⟨key, checked⟩, state, ?_, rfl, rfl⟩
    simp [Blueprint.build, ValueSetting.load, BooleanSetting.load, PrefsState.getBoolean, habsent]
  loads := by
    intro state saved hbuilds hvalue
    cases saved with
    | boolean s =>
      obtain rfl : s.key = key := hbuilds
      refine ⟨_, .boolean s, s.save state, rfl, ?_, hvalue, rfl⟩
      simp [Blueprint.build, ValueSetting.load, BooleanSetting.load, BooleanSetting.save,
        PrefsState.getBoolean, PrefsState.putBoolean, stored_put]
    | float s => exact hbuilds.elim
    | string s => exact hbuilds.elim
    | singleChoice s => exact hbuilds.elim
    | multiChoice s => exact hbuilds.elim

theorem loadsOrKeeps_float (value : UInt32) :
    LoadsOrKeeps android key (.float value) (.float value) v where
  keeps := by
    intro state habsent
    refine ⟨.float ⟨key, value⟩, state, ?_, rfl, rfl⟩
    simp [Blueprint.build, ValueSetting.load, FloatSetting.load, PrefsState.getFloat, habsent]
  loads := by
    intro state saved hbuilds hvalue
    cases saved with
    | float s =>
      obtain rfl : s.key = key := hbuilds
      refine ⟨_, .float s, s.save state, rfl, ?_, hvalue, rfl⟩
      simp [Blueprint.build, ValueSetting.load, FloatSetting.load, FloatSetting.save,
        PrefsState.getFloat, PrefsState.putFloat, stored_put]
    | boolean s => exact hbuilds.elim
    | string s => exact hbuilds.elim
    | singleChoice s => exact hbuilds.elim
    | multiChoice s => exact hbuilds.elim

theorem loadsOrKeeps_string (value : Option JString) (emptyIsNotSet : Bool)
    (hv : (Blueprint.string value emptyIsNotSet).HasValue v) :
    LoadsOrKeeps android key (.string value emptyIsNotSet) (.string value) v where
  keeps := by
    intro state habsent
    refine ⟨.string ⟨key, value, emptyIsNotSet⟩, state, ?_, rfl, rfl⟩
    simp [Blueprint.build, ValueSetting.load, StringSetting.load, getString_absent habsent]
  loads := by
    intro state saved hbuilds hvalue
    cases saved with
    | string s =>
      obtain ⟨rfl, rfl⟩ := hbuilds
      -- a text that is not null is stored
      obtain rfl : SettingValue.string s.value = v := Option.some.inj hvalue
      obtain ⟨text, htext⟩ := Option.ne_none_iff_exists'.mp hv
      have hget := getString_put state s.key text value
      rw [← htext] at hget
      refine ⟨_, .string s, s.save state, rfl, ?_, rfl, rfl⟩
      simp [Blueprint.build, ValueSetting.load, StringSetting.load, StringSetting.save, hget]
    | boolean s => exact hbuilds.elim
    | float s => exact hbuilds.elim
    | singleChoice s => exact hbuilds.elim
    | multiChoice s => exact hbuilds.elim

/-- The text of the default of a single choice. -/
theorem default_singleChoice {entryValues : Option (List CharSequence)} {checkedIndex : Int}
    {d : SettingValue} (hd : (Blueprint.singleChoice entryValues checkedIndex).default = some d)
    (key : JString) :
    ∃ current, SingleChoiceSetting.getValue ⟨key, entryValues, checkedIndex⟩ = some current ∧
      d = .choice (current.map CharSequence.toString) := by
  obtain ⟨current, hcurrent, rfl⟩ := Option.map_eq_some_iff.mp hd
  exact ⟨current, hcurrent, rfl⟩

theorem keeps_singleChoice {entryValues : Option (List CharSequence)} {checkedIndex : Int}
    {current : Option CharSequence} {state : PrefsState}
    (hcurrent : SingleChoiceSetting.getValue ⟨key, entryValues, checkedIndex⟩ = some current)
    (habsent : state.stored key = none) :
    ∃ s', SingleChoiceSetting.load ⟨key, entryValues, checkedIndex⟩ state = some s' ∧
      s'.getValue.map (Option.map CharSequence.toString) =
        some (current.map CharSequence.toString) := by
  cases current with
  | none =>
    refine ⟨⟨key, entryValues, -1⟩, ?_, rfl⟩
    unfold SingleChoiceSetting.load
    rw [hcurrent]
    dsimp only
    rw [getString_absent habsent]
    rfl
  | some c =>
    obtain ⟨entries, hentries⟩ := SingleChoiceSetting.entryValues_of_getValue hcurrent
    obtain ⟨s', hload, hvalue⟩ := SingleChoiceSetting.load_text hcurrent hentries
      (getString_absent habsent _)
    refine ⟨s', hload, hvalue.trans ?_⟩
    rw [Option.map_some, ite_self]

theorem value_singleChoice {s : SingleChoiceSetting} {text : Option JString}
    (h : s.getValue.map (Option.map CharSequence.toString) = some text) (state : PrefsState) :
    (ValueSetting.singleChoice s).value state = some (.choice text) := by
  obtain ⟨c, hc, rfl⟩ := Option.map_eq_some_iff.mp h
  show s.getValue.map _ = _
  rw [hc]
  rfl

theorem load_singleChoice {s s' : SingleChoiceSetting} {state : PrefsState}
    (h : s.load state = some s') :
    (ValueSetting.singleChoice s).load state = some (.singleChoice s', state) := by
  rw [ValueSetting.load, h]
  rfl

theorem save_singleChoice {s : SingleChoiceSetting} {c : CharSequence} {state : PrefsState}
    (h : s.getValue = some (some c)) :
    (ValueSetting.singleChoice s).save android state =
      some (state.putString s.key (some c.toString)) := by
  rw [ValueSetting.save, SingleChoiceSetting.save, h]
  rfl

section SingleChoice
variable {entries : List CharSequence} {checkedIndex : Int} {current : Option CharSequence}
  {c : CharSequence}

/-- What a new setting loads once the text of an entry is stored. -/
theorem load_stored_singleChoice
    (hcurrent : SingleChoiceSetting.getValue ⟨key, some entries, checkedIndex⟩ = some current)
    (text : JString) (state : PrefsState) :
    ∃ s', SingleChoiceSetting.load ⟨key, some entries, checkedIndex⟩
        (state.putString key (some text)) = some s' ∧
      s'.getValue.map (Option.map CharSequence.toString) =
        if .string text ∈ entries then some (some text)
        else some (current.map CharSequence.toString) :=
  SingleChoiceSetting.load_text hcurrent rfl (getString_put state key text _)

/-- An entry that is loaded has the text of a `String`, or is the default. -/
theorem loadsRight_of_loadsOrKeeps_singleChoice
    (hcurrent : SingleChoiceSetting.getValue ⟨key, some entries, checkedIndex⟩ = some current)
    (hc : c ∈ entries)
    (h : LoadsOrKeeps android key (.singleChoice (some entries) checkedIndex)
      (.choice (current.map CharSequence.toString)) (.choice (some c.toString))) :
    .string c.toString ∈ entries ∨ current.map CharSequence.toString = some c.toString := by
  by_cases hmem : .string c.toString ∈ entries
  · exact Or.inl hmem
  · right
    -- a setting that has the entry, and nothing stored so far
    obtain ⟨i, hi⟩ := SingleChoiceSetting.exists_index key hc
    have htext : (SingleChoiceSetting.getValue ⟨key, some entries, i⟩).map
        (Option.map CharSequence.toString) = some (some c.toString) := by
      rw [hi]
      rfl
    obtain ⟨stored, s', state', hsave, hloaded, hvalue, -⟩ :=
      h.loads ⟨.empty, fun _ => none⟩ (.singleChoice ⟨key, some entries, i⟩) ⟨rfl, rfl⟩
        (value_singleChoice htext _)
    rw [save_singleChoice hi, Option.some.injEq] at hsave
    obtain ⟨t, ht, hfound⟩ := load_stored_singleChoice hcurrent c.toString ⟨.empty, fun _ => none⟩
    rw [hsave] at ht
    cases hloaded.symm.trans (load_singleChoice ht)
    rw [if_neg hmem] at hfound
    have hsame := (value_singleChoice hfound stored).symm.trans hvalue
    exact SettingValue.choice.inj (Option.some.inj hsame)

theorem loadsOrKeeps_singleChoice
    (hcurrent : SingleChoiceSetting.getValue ⟨key, some entries, checkedIndex⟩ = some current)
    {text : JString}
    (hright : .string text ∈ entries ∨ current.map CharSequence.toString = some text) :
    LoadsOrKeeps android key (.singleChoice (some entries) checkedIndex)
      (.choice (current.map CharSequence.toString)) (.choice (some text)) where
  keeps := by
    intro state habsent
    obtain ⟨s', hloaded, htext⟩ := keeps_singleChoice hcurrent habsent
    refine ⟨.singleChoice s', state, load_singleChoice hloaded, value_singleChoice htext state, ?_⟩
    refine (value_singleChoice htext state).trans (value_singleChoice ?_ state).symm
    rw [hcurrent]
    rfl
  loads := by
    intro state saved hbuilds hvalue
    cases saved with
    | boolean s => exact hbuilds.elim
    | float s => exact hbuilds.elim
    | string s => exact hbuilds.elim
    | multiChoice s => exact hbuilds.elim
    | singleChoice s =>
      obtain ⟨rfl, hentries⟩ := hbuilds
      obtain ⟨chosen, hchosen, hchoice⟩ := Option.map_eq_some_iff.mp hvalue
      obtain ⟨c, rfl, rfl⟩ := Option.map_eq_some_iff.mp (SettingValue.choice.inj hchoice)
      obtain ⟨s', hloaded, hfound⟩ := load_stored_singleChoice hcurrent c.toString state
      have htext : s'.getValue.map (Option.map CharSequence.toString) = some (some c.toString) := by
        rw [hfound]
        split
        · rfl
        · rename_i hmem
          rw [hright.resolve_left hmem]
      have hloadedValue := value_singleChoice htext (state.putString s.key (some c.toString))
      exact ⟨_, .singleChoice s', _, save_singleChoice hchosen, load_singleChoice hloaded,
        hloadedValue, hloadedValue.trans hvalue.symm⟩

end SingleChoice

theorem loadsOrKeeps_singleChoice_iff {entryValues : Option (List CharSequence)}
    {checkedIndex : Int} {d : SettingValue}
    (hd : (Blueprint.singleChoice entryValues checkedIndex).default = some d)
    (hv : (Blueprint.singleChoice entryValues checkedIndex).HasValue v) :
    LoadsOrKeeps android key (.singleChoice entryValues checkedIndex) d v ↔
      LoadsRight (.singleChoice entryValues checkedIndex) d v := by
  obtain ⟨current, hcurrent, rfl⟩ := default_singleChoice hd key
  cases v with
  | boolean x => exact hv.elim
  | float x => exact hv.elim
  | string x => exact hv.elim
  | set x => exact hv.elim
  | choice value =>
    obtain ⟨c, hc, rfl⟩ := hv
    cases entryValues with
    | none => cases hc
    | some entries =>
      have hright : LoadsRight (.singleChoice (some entries) checkedIndex)
          (.choice (current.map CharSequence.toString)) (.choice (some c.toString)) ↔
          .string c.toString ∈ entries ∨
            current.map CharSequence.toString = some c.toString := by
        simp only [LoadsRight, Option.getD_some, SettingValue.choice.injEq]
      rw [hright]
      exact ⟨loadsRight_of_loadsOrKeeps_singleChoice hcurrent hc,
        loadsOrKeeps_singleChoice hcurrent⟩

/-! ### A multiple choice -/

/-- The set of a new setting is not the one that is stored, so what is stored is loaded. -/
theorem load_multiChoice_of_stored {state : PrefsState} {r : Ref}
    (hstored : state.stored key = some (.stringSet r)) (hr : r < state.sets.next)
    (values : Finset JString) :
    ∃ s' state', ((Blueprint.multiChoice values).build key state).1.load
        ((Blueprint.multiChoice values).build key state).2 = some (s', state') ∧
      s'.value state' = some (.set (state.sets.content r)) ∧
      s'.getValue state' = some (.set (state.sets.content r)) := by
  let s : MultiChoiceSetting := ⟨key, (state.sets.new values).2⟩
  have hne : r ≠ s.value := Nat.ne_of_lt hr
  have hcontent : (s.setValue (some r) (state.sets.new values).1).content s.value
      = state.sets.content r := by
    rw [MultiChoiceSetting.content_setValue_of_ne s _ hne, ObjectStore.content_new_of_lt _ hr]
  have hvalue : (ValueSetting.multiChoice s).value
      ⟨s.setValue (some r) (state.sets.new values).1, state.stored⟩
        = some (.set (state.sets.content r)) :=
    congrArg (fun x => some (SettingValue.set x)) hcontent
  refine ⟨.multiChoice s, ⟨s.setValue (some r) (state.sets.new values).1, state.stored⟩,
    ?_, hvalue, hvalue⟩
  simp [Blueprint.build, ValueSetting.load, MultiChoiceSetting.load, PrefsState.getStringSet,
    hstored, s]

/-- Without a stored set nothing is left of the default. -/
theorem load_multiChoice_of_absent (key : JString) (state : PrefsState)
    (habsent : state.stored key = none) (values : Finset JString) :
    ∃ s' state', ((Blueprint.multiChoice values).build key state).1.load
        ((Blueprint.multiChoice values).build key state).2 = some (s', state') ∧
      s'.value state' = some (.set ∅) ∧ s'.getValue state' = some (.set ∅) := by
  let s : MultiChoiceSetting := ⟨key, (state.sets.new values).2⟩
  have hvalue : (ValueSetting.multiChoice s).value
      ⟨s.setValue (some s.value) (state.sets.new values).1, state.stored⟩ = some (.set ∅) :=
    congrArg (fun x => some (SettingValue.set x)) (MultiChoiceSetting.content_setValue_self s _)
  refine ⟨.multiChoice s, ⟨s.setValue (some s.value) (state.sets.new values).1, state.stored⟩,
    ?_, hvalue, hvalue⟩
  simp [Blueprint.build, ValueSetting.load, MultiChoiceSetting.load, PrefsState.getStringSet,
    habsent, s]

/-- Saving a set stores an object with its strings. -/
theorem save_multiChoice (android : Preferences) (s : MultiChoiceSetting) {state : PrefsState}
    (hs : s.value < state.sets.next) :
    ∃ r, (s.save android state).stored s.key = some (.stringSet r) ∧
      r < (s.save android state).sets.next ∧
      (s.save android state).sets.content r = state.sets.content s.value :=
  ⟨(android.keep state.sets s.value).2, Function.update_self .., android.made _ _ hs,
    android.kept _ _ hs⟩

theorem loadsOrKeeps_multiChoice_iff (values : Finset JString) :
    LoadsOrKeeps android key (.multiChoice values) (.set values) v ↔ values = ∅ := by
  constructor
  · intro h
    obtain ⟨s', state', hload, hvalue, -⟩ := h.keeps ⟨.empty, fun _ => none⟩ rfl
    obtain ⟨t, state'', hload', hvalue', -⟩ :=
      load_multiChoice_of_absent key ⟨.empty, fun _ => none⟩ rfl values
    cases hload.symm.trans hload'
    cases hvalue.symm.trans hvalue'
    rfl
  · rintro rfl
    refine ⟨?_, ?_⟩
    · intro state habsent
      obtain ⟨s', state', hload, hvalue, hget⟩ := load_multiChoice_of_absent key state habsent ∅
      refine ⟨s', state', hload, hvalue, hget.trans ?_⟩
      show some (SettingValue.set ∅) = some (.set ((state.sets.new ∅).1.content _))
      rw [ObjectStore.content_new_self]
    · intro state saved hbuilds hvalue
      cases saved with
      | boolean s => exact hbuilds.elim
      | float s => exact hbuilds.elim
      | string s => exact hbuilds.elim
      | singleChoice s => exact hbuilds.elim
      | multiChoice s =>
        obtain ⟨rfl, hs⟩ := hbuilds
        obtain ⟨r, hstored, hr, hkept⟩ := save_multiChoice android s hs
        obtain ⟨s', state', hload, hloaded, hget⟩ := load_multiChoice_of_stored hstored hr ∅
        rw [hkept] at hloaded hget
        exact ⟨_, s', state', rfl, hload, hloaded.trans hvalue, hget⟩

end

/-! ## All kinds together -/

/-- **When loading is right**: always for a switch, a number and a text; for a multiple choice if
    it has no default; and for a single choice if the text of the value is that of a `String`
    among its entries, or is its default. -/
theorem loadsOrKeeps_iff (android : Preferences) (key : JString) (b : Blueprint)
    (d v : SettingValue) (hd : b.default = some d) (hv : b.HasValue v) :
    LoadsOrKeeps android key b d v ↔ LoadsRight b d v := by
  cases b with
  | boolean checked =>
    cases hd
    exact iff_of_true (loadsOrKeeps_boolean checked) (by cases v <;> trivial)
  | float value =>
    cases hd
    exact iff_of_true (loadsOrKeeps_float value) (by cases v <;> trivial)
  | string value emptyIsNotSet =>
    cases hd
    exact iff_of_true (loadsOrKeeps_string value emptyIsNotSet hv) (by cases v <;> trivial)
  | singleChoice entryValues checkedIndex => exact loadsOrKeeps_singleChoice_iff hd hv
  | multiChoice values =>
    cases hd
    exact loadsOrKeeps_multiChoice_iff values

/-- Two entries, both of them strings. -/
theorem loadsOrKeeps_iff_strings :
    LoadsOrKeeps copyingPreferences ['k'] (.singleChoice (some [.string ['0'], .string ['1']]) 0)
      (.choice (some ['0'])) (.choice (some ['1'])) :=
  (loadsOrKeeps_iff copyingPreferences ['k'] (.singleChoice (some [.string ['0'], .string ['1']]) 0)
    (.choice (some ['0'])) (.choice (some ['1'])) rfl
    ⟨.string ['1'], by decide, rfl⟩).mpr (Or.inl (by decide))

/-- A multiple choice with one string by default: loading it leaves the empty set. -/
theorem loadsOrKeeps_lost :
    (Blueprint.multiChoice {['a']}).default = some (.set {['a']}) ∧
      (Blueprint.multiChoice {['a']}).HasValue (.set {['a']}) ∧
      ¬ LoadsOrKeeps copyingPreferences ['k'] (.multiChoice {['a']}) (.set {['a']})
        (.set {['a']}) := by
  refine ⟨rfl, trivial, ?_⟩
  intro h
  have hempty := (loadsOrKeeps_multiChoice_iff {['a']}).mp h
  exact absurd hempty (by decide)

end Sshd4a
