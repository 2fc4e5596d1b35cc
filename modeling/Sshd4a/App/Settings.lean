import Mathlib.Logic.Function.Basic
import Sshd4a.App.ParseInt
import Sshd4a.Lib.Machine

/-!
# The settings screen (`SettingsFragment.java`, `SettingsManager.java`)

Every setting of the screen holds a value in memory and has a store behind it: the shared
preferences, or for the usernames and passwords the `UserPassStorage` of the account. A change by
the user first goes to the callback of the setting; if that accepts it, the manager sets the new
value and saves it. Two callbacks also set a value themselves: the one of the two run mode
switches, and the dialog that the switch for commands by intent opens.

`loadAll` on a new screen says what a store holds, so that a screen is written through if it
shows what a new one would.
-/

namespace Sshd4a.Settings

/-! ## The settings -/

inductive BoolKey
  | runOnBoot
  | runOnAppStart
  | runOnIntentAllowed
  | runInForeground
  | onAppExitKeepRunning
  | enableServiceShellAccess
  | enableSingleUsePasswords
  | enablePublicKeyLogin
  | enableFileLogging
  | enableExecIntent
deriving DecidableEq, Repr

inductive Account
  | user
  | root
  | shell
deriving DecidableEq, Repr

inductive TextKey
  | sshdPort
  | dropbearCmdlineOptions
  | envVars
  | home
  | shell
  | fileLoggingDir
  | execToken
  | importUrl
  | username (account : Account)
  | password (account : Account)
deriving DecidableEq, Repr

inductive ChoiceKey
  | suCommandStyle
  | uiThemeMode
deriving DecidableEq, Repr

/-- `pv_su_command_style` and `pv_ui_theme_mode`. -/
def entryValues : ChoiceKey → List JString
  | .suCommandStyle => ["positional".toList, "dash_c".toList]
  | .uiThemeMode => ["0".toList, "1".toList, "2".toList]

/-- What the settings hold: `checked`, `value` and `checkedIndex`, with `none` for `null` and
    for `NONE`. -/
@[ext] structure Memory where
  checked : BoolKey → Bool
  text : TextKey → Option JString
  index : ChoiceKey → Option Nat

/-- The values that `onCreateSettings` builds the settings with. -/
def onCreateSettings : Memory where
  checked
    | .runInForeground | .enableServiceShellAccess | .enableSingleUsePasswords
    | .enablePublicKeyLogin => true
    | _ => false
  text
    | .sshdPort => some "2222".toList
    | .shell => some "/system/bin/sh".toList
    | _ => none
  index := fun _ => some 0

/-! ## The stores -/

/-- The shared preferences, and what the three `UserPassStorage` hold. -/
structure Store where
  bools : BoolKey → Option Bool
  choices : ChoiceKey → Option JString
  texts : TextKey → Option JString

/-- `getString` of the store of the setting. A `UserPassStorage` has no use for the default. -/
def Store.getString (store : Store) : TextKey → Option JString → Option JString
  | .username account, _ => store.texts (.username account)
  | .password account, _ => store.texts (.password account)
  | key, defValue => (store.texts key).or defValue

def Store.putBoolean (store : Store) (key : BoolKey) (value : Bool) : Store :=
  { store with bools := Function.update store.bools key (some value) }

/-- `putString`; `null` removes the key. -/
def Store.putString (store : Store) (key : TextKey) (value : Option JString) : Store :=
  { store with texts := Function.update store.texts key value }

def Store.putChoice (store : Store) (key : ChoiceKey) (value : Option JString) : Store :=
  { store with choices := Function.update store.choices key value }

/-- `SingleChoiceSetting.getValue`. -/
def choiceValue (key : ChoiceKey) (index : Option Nat) : Option JString :=
  index.bind fun i => (entryValues key)[i]?

/-- `SingleChoiceSetting.setValue`: a value that is not among the entries changes nothing. -/
def setChoice (key : ChoiceKey) (index : Option Nat) : Option JString → Option Nat
  | none => none
  | some value => ((entryValues key).idxOf? value).or index

/-- `loadAll`: the value a setting already has is the default. -/
def loadAll (store : Store) (m : Memory) : Memory where
  checked := fun key => (store.bools key).getD (m.checked key)
  text := fun key => store.getString key (m.text key)
  index := fun key =>
    setChoice key (m.index key) ((store.choices key).or (choiceValue key (m.index key)))

structure Screen where
  store : Store
  memory : Memory
  /-- The warnings of `onExecIntentChange` that are open. -/
  warnings : Nat

/-- The screen as it opens. -/
def openScreen (store : Store) : Screen :=
  { store := store, memory := loadAll store onCreateSettings, warnings := 0 }

/-! ## The callbacks -/

def Screen.setChecked (s : Screen) (key : BoolKey) (value : Bool) : Screen :=
  { s with memory := { s.memory with checked := Function.update s.memory.checked key value } }

/-- It looks at the values before the change, not at the new one. -/
def onRunModeChanged (s : Screen) : Screen × Bool :=
  if s.memory.checked .runOnBoot && !s.memory.checked .runInForeground then
    (s.setChecked .runInForeground true, true)
  else (s, true)

def onExecIntentChange (s : Screen) (newValue : Bool) : Screen × Bool :=
  if !newValue then (s, true) else ({ s with warnings := s.warnings + 1 }, false)

/-- `PORT_MIN` and `PORT_MAX`. -/
def onPortChange (newValue : Option JString) : Bool :=
  let port : Int :=
    match newValue with
    | none => -1
    | some s => if isBlank s then -1 else (parseInt s).getD (-1)
  decide (1024 ≤ port ∧ port ≤ 32768)

/-- The callback of a switch, or the one that accepts everything. -/
def boolCallback (s : Screen) (newValue : Bool) : BoolKey → Screen × Bool
  | .runOnBoot | .runInForeground => onRunModeChanged s
  | .enableExecIntent => onExecIntentChange s newValue
  | _ => (s, true)

/-- Apart from the port the callbacks of texts and choices accept every value, and what they do
    is to enable fields, to import keys or to change the theme. -/
def textCallback (newValue : Option JString) : TextKey → Bool
  | .sshdPort => onPortChange newValue
  | _ => true

/-! ## `onChange` -/

def Screen.saveBool (s : Screen) (key : BoolKey) : Screen :=
  { s with store := s.store.putBoolean key (s.memory.checked key) }

def Screen.onChangeBool (s : Screen) (key : BoolKey) (newValue : Bool) : Screen :=
  let r := boolCallback s newValue key
  if r.2 then (r.1.setChecked key newValue).saveBool key else r.1

def Screen.onChangeText (s : Screen) (key : TextKey) (newValue : Option JString) : Screen :=
  if textCallback newValue key then
    { s with
      memory := { s.memory with text := Function.update s.memory.text key newValue }
      store := s.store.putString key newValue }
  else s

def Screen.onChangeChoice (s : Screen) (key : ChoiceKey) (newValue : JString) : Screen :=
  let index := setChoice key (s.memory.index key) (some newValue)
  { s with
    memory := { s.memory with index := Function.update s.memory.index key index }
    store := s.store.putChoice key (choiceValue key index) }

/-- What the user does: a switch or its row, OK in the dialog of a text, the neutral button in
    that of a password (no other dialog has one), an entry of a choice, and the two buttons of
    the warning. -/
inductive Action
  | toggle (key : BoolKey) (newValue : Bool)
  | enter (key : TextKey) (newValue : JString)
  | unset (account : Account)
  | choose (key : ChoiceKey) (entry : Nat)
  | confirm
  | cancel

def step (s : Screen) : Action → Option Screen
  | .toggle key newValue => some (s.onChangeBool key newValue)
  | .enter key newValue => some (s.onChangeText key (some newValue))
  | .unset account => some (s.onChangeText (.password account) none)
  | .choose key entry => (entryValues key)[entry]?.map (s.onChangeChoice key)
  | .confirm =>
    if s.warnings = 0 then none
    else some { s.setChecked .enableExecIntent true with warnings := s.warnings - 1 }
  | .cancel => if s.warnings = 0 then none else some { s with warnings := s.warnings - 1 }

/-! ## Written through -/

/-- The screen shows what a new one would, and loading it again changes nothing. -/
structure Screen.WrittenThrough (s : Screen) : Prop where
  fresh : loadAll s.store onCreateSettings = s.memory
  again : loadAll s.store s.memory = s.memory

/-- The flags as the service reads them. -/
def Store.BootImpliesForeground (store : Store) : Prop :=
  (store.bools .runOnBoot).getD false = true → (store.bools .runInForeground).getD true = true

/-- The boot switch is left alone while it is on and the foreground switch is off, and the
    warning is confirmed only if the switch it is about is already on. -/
def Screen.LeavesNothing (s : Screen) : Action → Prop
  | .toggle .runOnBoot _ =>
    s.memory.checked .runOnBoot = true → s.memory.checked .runInForeground = true
  | .confirm => s.warnings ≠ 0 → s.memory.checked .enableExecIntent = true
  | _ => True

/-- The boot switch is turned on only while the foreground flag is stored, and that is turned
    off only while the boot flag is not. -/
def Screen.KeepsRunMode (s : Screen) : Action → Prop
  | .toggle .runOnBoot newValue =>
    newValue = true → (s.store.bools .runInForeground).getD true = true
  | .toggle .runInForeground newValue =>
    newValue = false → (s.store.bools .runOnBoot).getD false = false
  | _ => True

/-! ## Loading -/

theorem setChoice_of_mem {key : ChoiceKey} {value : JString} (h : value ∈ entryValues key)
    (index : Option Nat) : setChoice key index (some value) = (entryValues key).idxOf? value := by
  obtain ⟨i, hi⟩ := Option.isSome_iff_exists.mp (List.isSome_idxOf?.mpr h)
  rw [setChoice, hi, Option.some_or]

theorem choiceValue_setChoice {key : ChoiceKey} {value : JString} (h : value ∈ entryValues key)
    (index : Option Nat) : choiceValue key (setChoice key index (some value)) = some value := by
  obtain ⟨i, hi⟩ := Option.isSome_iff_exists.mp (List.isSome_idxOf?.mpr h)
  obtain ⟨hlt, hvalue, -⟩ := List.idxOf?_eq_some_iff.mp hi
  rw [setChoice_of_mem h, hi, choiceValue, Option.bind_some, List.getElem?_eq_getElem hlt, hvalue]

theorem mem_of_choiceValue {key : ChoiceKey} {index : Option Nat} {value : JString}
    (h : choiceValue key index = some value) : value ∈ entryValues key := by
  obtain ⟨i, -, hi⟩ := Option.bind_eq_some_iff.mp h
  exact List.mem_of_getElem? hi

theorem getString_getString (store : Store) (key : TextKey) (value : Option JString) :
    store.getString key (store.getString key value) = store.getString key value := by
  have hor : ∀ v : Option JString, v.or (v.or value) = v.or value := by
    intro v
    cases v with
    | none => rfl
    | some v => rfl
  cases key with
  | username account => rfl
  | password account => rfl
  | _ => exact hor _

theorem loadAll_loadAll (store : Store) (m : Memory) :
    loadAll store (loadAll store m) = loadAll store m := by
  apply Memory.ext
  · funext key
    show (store.bools key).getD ((store.bools key).getD _) = (store.bools key).getD _
    cases store.bools key with
    | none => rfl
    | some value => rfl
  · funext key
    exact getString_getString store key _
  · funext key
    simp only [loadAll]
    cases store.choices key with
    | none =>
      rw [Option.none_or, Option.none_or]
      cases hvalue : choiceValue key (m.index key) with
      | none => rfl
      | some value =>
        have hmem := mem_of_choiceValue hvalue
        rw [choiceValue_setChoice hmem, setChoice_of_mem hmem, setChoice_of_mem hmem]
    | some value =>
      rw [Option.some_or, Option.some_or]
      show Option.or _ (Option.or _ _) = Option.or _ _
      cases (entryValues key).idxOf? value with
      | none => rfl
      | some i => rfl

theorem writtenThrough_iff {s : Screen} :
    s.WrittenThrough ↔ loadAll s.store onCreateSettings = s.memory := by
  constructor
  · intro h
    exact h.fresh
  · intro h
    refine ⟨h, ?_⟩
    rw [← h, loadAll_loadAll]

theorem writtenThrough_openScreen (store : Store) : (openScreen store).WrittenThrough :=
  writtenThrough_iff.mpr rfl

theorem loadAll_putBoolean (store : Store) (m : Memory) (key : BoolKey) (value : Bool) :
    loadAll (store.putBoolean key value) m
      = { loadAll store m with
          checked := Function.update (loadAll store m).checked key value } := by
  apply Memory.ext
  · funext key'
    show (Function.update store.bools key (some value) key').getD (m.checked key')
      = Function.update (loadAll store m).checked key value key'
    by_cases h : key' = key
    · rw [h, Function.update_self, Function.update_self, Option.getD_some]
    · rw [Function.update_of_ne h, Function.update_of_ne h]
      rfl
  · rfl
  · rfl

/-- Nothing but a removed preference would load as its default again. -/
theorem loadAll_putString (store : Store) (m : Memory) {key : TextKey} {value : Option JString}
    (h : value = none → ∃ account, key = .password account) :
    loadAll (store.putString key value) m
      = { loadAll store m with text := Function.update (loadAll store m).text key value } := by
  apply Memory.ext
  · rfl
  · funext key'
    show (store.putString key value).getString key' (m.text key')
      = Function.update (loadAll store m).text key value key'
    by_cases hkey : key' = key
    · rw [hkey, Function.update_self]
      cases value with
      | none =>
        obtain ⟨account, rfl⟩ := h rfl
        exact Function.update_self _ _ _
      | some value =>
        have htexts : (store.putString key (some value)).texts key = some value :=
          Function.update_self _ _ _
        cases key <;> simp [Store.getString, htexts]
    · have htexts : (store.putString key value).texts key' = store.texts key' :=
        Function.update_of_ne hkey _ _
      rw [Function.update_of_ne hkey]
      show _ = store.getString key' (m.text key')
      cases key' <;> simp only [Store.getString, htexts]
  · rfl

theorem loadAll_putChoice (store : Store) (m : Memory) {key : ChoiceKey} {value : JString}
    (h : value ∈ entryValues key) :
    loadAll (store.putChoice key (some value)) m
      = { loadAll store m with
          index := Function.update (loadAll store m).index key
            ((entryValues key).idxOf? value) } := by
  apply Memory.ext
  · rfl
  · rfl
  · funext key'
    show setChoice key' (m.index key')
        ((Function.update store.choices key (some value) key').or (choiceValue key' (m.index key')))
      = Function.update (loadAll store m).index key ((entryValues key).idxOf? value) key'
    by_cases hkey : key' = key
    · rw [hkey, Function.update_self, Function.update_self, Option.some_or, setChoice_of_mem h]
    · rw [Function.update_of_ne hkey, Function.update_of_ne hkey]
      rfl

/-! ## One action -/

variable {s t : Screen}

theorem Screen.WrittenThrough.accept (h : s.WrittenThrough) (key : BoolKey) (value : Bool) :
    ((s.setChecked key value).saveBool key).WrittenThrough := by
  rw [writtenThrough_iff] at h ⊢
  show loadAll (s.store.putBoolean key (Function.update s.memory.checked key value key)) _ = _
  rw [Function.update_self, loadAll_putBoolean, h]
  rfl

theorem Screen.WrittenThrough.onChangeText (h : s.WrittenThrough) {key : TextKey}
    {value : Option JString} (hvalue : value = none → ∃ account, key = .password account) :
    (s.onChangeText key value).WrittenThrough := by
  unfold Screen.onChangeText
  split
  · rw [writtenThrough_iff] at h ⊢
    show loadAll (s.store.putString key value) _ = _
    rw [loadAll_putString _ _ hvalue, h]
  · exact h

theorem Screen.WrittenThrough.onChangeChoice (h : s.WrittenThrough) {key : ChoiceKey}
    {value : JString} (hvalue : value ∈ entryValues key) :
    (s.onChangeChoice key value).WrittenThrough := by
  rw [writtenThrough_iff] at h ⊢
  simp only [Screen.onChangeChoice]
  rw [choiceValue_setChoice hvalue, setChoice_of_mem hvalue, loadAll_putChoice _ _ hvalue, h]

theorem Screen.WrittenThrough.checked (h : s.WrittenThrough) (key : BoolKey) :
    (s.store.bools key).getD (onCreateSettings.checked key) = s.memory.checked key :=
  congrFun (congrArg Memory.checked h.fresh) key

/-- A value that is set and not saved was there before. -/
theorem writtenThrough_of_unsaved {key : BoolKey} {value : Bool} (h : s.WrittenThrough)
    (hstore : t.store.bools key = s.store.bools key) (hmemory : t.memory.checked key = value)
    (ht : t.WrittenThrough) : s.memory.checked key = value := by
  rw [← h.checked key, ← hstore, ht.checked key, hmemory]

theorem onRunModeChanged_snd (s : Screen) : (onRunModeChanged s).2 = true := by
  unfold onRunModeChanged
  split <;> rfl

theorem onRunModeChanged_store (s : Screen) : (onRunModeChanged s).1.store = s.store := by
  unfold onRunModeChanged
  split <;> rfl

theorem onRunModeChanged_of_imp (h : s.memory.checked .runOnBoot = true →
    s.memory.checked .runInForeground = true) : onRunModeChanged s = (s, true) := by
  unfold onRunModeChanged
  rw [if_neg]
  rw [Bool.and_eq_true, Bool.not_eq_true']
  intro ⟨hboot, hforeground⟩
  rw [h hboot] at hforeground
  cases hforeground

theorem onRunModeChanged_of_not_imp (hboot : s.memory.checked .runOnBoot = true)
    (hforeground : s.memory.checked .runInForeground = false) :
    onRunModeChanged s = (s.setChecked .runInForeground true, true) := by
  unfold onRunModeChanged
  rw [if_pos (by rw [hboot, hforeground]; rfl)]

theorem setChecked_setChecked (s : Screen) (key : BoolKey) (v w : Bool) :
    (s.setChecked key v).setChecked key w = s.setChecked key w := by
  unfold Screen.setChecked
  rw [Function.update_idem]

/-- The boot switch: the foreground switch may be set in passing, and is not saved. -/
theorem writtenThrough_runOnBoot (h : s.WrittenThrough) (value : Bool) :
    (s.onChangeBool .runOnBoot value).WrittenThrough ↔
      (s.memory.checked .runOnBoot = true → s.memory.checked .runInForeground = true) := by
  have hchange : s.onChangeBool .runOnBoot value
      = ((onRunModeChanged s).1.setChecked .runOnBoot value).saveBool .runOnBoot :=
    if_pos (onRunModeChanged_snd s)
  rw [hchange]
  constructor
  · intro ht hboot
    cases hforeground : s.memory.checked .runInForeground with
    | true => rfl
    | false =>
      rw [onRunModeChanged_of_not_imp hboot hforeground] at ht
      rw [← hforeground]
      exact writtenThrough_of_unsaved h (by rfl) (by rfl) ht
  · intro himp
    rw [onRunModeChanged_of_imp himp]
    exact h.accept .runOnBoot value

/-- The foreground switch: what is set in passing is overwritten. -/
theorem Screen.WrittenThrough.runInForeground (h : s.WrittenThrough) (value : Bool) :
    (s.onChangeBool .runInForeground value).WrittenThrough := by
  have hchange : s.onChangeBool .runInForeground value
      = (s.setChecked .runInForeground value).saveBool .runInForeground := by
    have hset : (onRunModeChanged s).1.setChecked .runInForeground value
        = s.setChecked .runInForeground value := by
      unfold onRunModeChanged
      split
      · exact setChecked_setChecked s _ _ _
      · rfl
    rw [← hset]
    exact if_pos (onRunModeChanged_snd s)
  rw [hchange]
  exact h.accept .runInForeground value

theorem Screen.WrittenThrough.enableExecIntent (h : s.WrittenThrough) (value : Bool) :
    (s.onChangeBool .enableExecIntent value).WrittenThrough := by
  cases value with
  | true => exact ⟨h.fresh, h.again⟩
  | false => exact h.accept .enableExecIntent false

/-- The button of the warning sets the switch and does not save it. -/
theorem writtenThrough_confirm (h : s.WrittenThrough) (warnings : Nat) :
    ({ s.setChecked .enableExecIntent true with warnings := warnings } : Screen).WrittenThrough ↔
      s.memory.checked .enableExecIntent = true := by
  constructor
  · intro ht
    exact writtenThrough_of_unsaved h (by rfl) (by rfl) ht
  · intro hchecked
    have hmemory : Function.update s.memory.checked .enableExecIntent true = s.memory.checked := by
      rw [← hchecked, Function.update_eq_self]
    rw [writtenThrough_iff]
    show loadAll s.store onCreateSettings
      = { s.memory with checked := Function.update s.memory.checked .enableExecIntent true }
    rw [hmemory, h.fresh]

theorem step_confirm (h : step s .confirm = some t) : s.warnings ≠ 0 ∧
    t = { s.setChecked .enableExecIntent true with warnings := s.warnings - 1 } := by
  rw [step] at h
  split at h <;> cases h
  exact ⟨‹_›, rfl⟩

theorem step_cancel (h : step s .cancel = some t) :
    t = { s with warnings := s.warnings - 1 } := by
  rw [step] at h
  split at h <;> cases h
  rfl

/-- **Written through**, after exactly the actions that leave nothing behind. -/
theorem writtenThrough_step {a : Action} (h : s.WrittenThrough) (hstep : step s a = some t) :
    t.WrittenThrough ↔ s.LeavesNothing a := by
  cases a with
  | toggle key value =>
    cases hstep
    cases key with
    | runOnBoot => exact writtenThrough_runOnBoot h value
    | runInForeground => exact iff_of_true (h.runInForeground value) trivial
    | enableExecIntent => exact iff_of_true (h.enableExecIntent value) trivial
    | _ => exact iff_of_true (h.accept _ value) trivial
  | enter key value =>
    cases hstep
    exact iff_of_true (h.onChangeText fun hnone => by cases hnone) trivial
  | unset account =>
    cases hstep
    exact iff_of_true (h.onChangeText fun _ => ⟨account, rfl⟩) trivial
  | choose key entry =>
    obtain ⟨value, hvalue, rfl⟩ := Option.map_eq_some_iff.mp hstep
    exact iff_of_true (h.onChangeChoice (List.mem_of_getElem? hvalue)) trivial
  | confirm =>
    obtain ⟨hwarnings, rfl⟩ := step_confirm hstep
    rw [writtenThrough_confirm h]
    exact ⟨fun hchecked _ => hchecked, fun hchecked => hchecked hwarnings⟩
  | cancel =>
    rw [step_cancel hstep]
    exact iff_of_true ⟨h.fresh, h.again⟩ trivial

/-! ## The run mode -/

theorem bools_toggle (s : Screen) {key : BoolKey} (value : Bool)
    (hkey : key ≠ .enableExecIntent) :
    (s.onChangeBool key value).store.bools
      = Function.update s.store.bools key (some value) := by
  have hput : ∀ s' : Screen, s'.store = s.store →
      ((s'.setChecked key value).saveBool key).store.bools
        = Function.update s.store.bools key (some value) := by
    intro s' hs'
    show Function.update s'.store.bools key (some (Function.update s'.memory.checked key value key))
      = _
    rw [Function.update_self, hs']
  have haccept : (boolCallback s value key).2 = true ∧
      (boolCallback s value key).1.store = s.store := by
    cases key with
    | runOnBoot => exact ⟨onRunModeChanged_snd s, onRunModeChanged_store s⟩
    | runInForeground => exact ⟨onRunModeChanged_snd s, onRunModeChanged_store s⟩
    | enableExecIntent => exact absurd rfl hkey
    | _ => exact ⟨rfl, rfl⟩
  have hchange : s.onChangeBool key value
      = ((boolCallback s value key).1.setChecked key value).saveBool key := if_pos haccept.1
  rw [hchange, hput _ haccept.2]

theorem bools_enableExecIntent (s : Screen) (value : Bool) {key : BoolKey}
    (hkey : key ≠ .enableExecIntent) :
    (s.onChangeBool .enableExecIntent value).store.bools key = s.store.bools key := by
  cases value with
  | true => rfl
  | false => exact Function.update_of_ne hkey _ _

theorem bools_onChangeText (s : Screen) (key : TextKey) (value : Option JString) :
    (s.onChangeText key value).store.bools = s.store.bools := by
  unfold Screen.onChangeText
  split <;> rfl

theorem bootImpliesForeground_congr {store store' : Store}
    (hboot : store'.bools .runOnBoot = store.bools .runOnBoot)
    (hforeground : store'.bools .runInForeground = store.bools .runInForeground) :
    store'.BootImpliesForeground ↔ store.BootImpliesForeground := by
  unfold Store.BootImpliesForeground
  rw [hboot, hforeground]

/-- **The run mode** is kept by exactly the actions that look at the other flag. -/
theorem bootImpliesForeground_step {a : Action} (h : s.store.BootImpliesForeground)
    (hstep : step s a = some t) : t.store.BootImpliesForeground ↔ s.KeepsRunMode a := by
  have hsame : t.store.bools .runOnBoot = s.store.bools .runOnBoot →
      t.store.bools .runInForeground = s.store.bools .runInForeground →
      t.store.BootImpliesForeground :=
    fun hboot hforeground => (bootImpliesForeground_congr hboot hforeground).mpr h
  cases a with
  | toggle key value =>
    cases hstep
    cases key with
    | runOnBoot =>
      unfold Store.BootImpliesForeground
      rw [bools_toggle s value (by simp), Function.update_self, Function.update_of_ne (by simp)]
      exact Iff.rfl
    | runInForeground =>
      unfold Store.BootImpliesForeground
      rw [bools_toggle s value (by simp), Function.update_self, Function.update_of_ne (by simp),
        Option.getD_some]
      show _ ↔ (value = false → _)
      cases value with
      | true => simp
      | false => simp
    | enableExecIntent =>
      exact iff_of_true (hsame (bools_enableExecIntent s value (by simp))
        (bools_enableExecIntent s value (by simp))) trivial
    | _ =>
      refine iff_of_true (hsame ?_ ?_) trivial
      · rw [bools_toggle s value (by simp), Function.update_of_ne (by simp)]
      · rw [bools_toggle s value (by simp), Function.update_of_ne (by simp)]
  | enter key value =>
    cases hstep
    refine iff_of_true (hsame ?_ ?_) trivial
    · rw [bools_onChangeText]
    · rw [bools_onChangeText]
  | unset account =>
    cases hstep
    refine iff_of_true (hsame ?_ ?_) trivial
    · rw [bools_onChangeText]
    · rw [bools_onChangeText]
  | choose key entry =>
    obtain ⟨value, -, rfl⟩ := Option.map_eq_some_iff.mp hstep
    exact iff_of_true (hsame rfl rfl) trivial
  | confirm =>
    obtain ⟨-, rfl⟩ := step_confirm hstep
    exact iff_of_true (hsame rfl rfl) trivial
  | cancel =>
    rw [step_cancel hstep] at hsame ⊢
    exact iff_of_true (hsame rfl rfl) trivial

/-! ## Runs of the screen -/

/-- An action leaves the screen written through, and the flags together if the run started with
    them so. -/
def AfterAction (store : Store) (s : Screen) (a : Action) : Prop :=
  ∀ t, step s a = some t →
    t.WrittenThrough ∧ (store.BootImpliesForeground → t.store.BootImpliesForeground)

/-- What the user does not do. -/
def Avoids (store : Store) (s : Screen) (a : Action) : Prop :=
  s.LeavesNothing a ∧ (store.BootImpliesForeground → s.KeepsRunMode a)

/-- An entry that is not there is not chosen, and no dialog is closed that is not open. -/
theorem avoids_of_step_eq_none {a : Action} (h : step s a = none) :
    s.LeavesNothing a ∧ s.KeepsRunMode a := by
  cases a with
  | toggle key value => cases h
  | enter key value => cases h
  | unset account => cases h
  | choose key entry => exact ⟨trivial, trivial⟩
  | confirm =>
    refine ⟨?_, trivial⟩
    intro hwarnings
    rw [step, if_neg hwarnings] at h
    cases h
  | cancel => exact ⟨trivial, trivial⟩

/-- **When settings are written through.** After every action of a run of the screen the memory is
    what the stores would load, and a boot flag that implied the foreground flag still does,
    exactly if every action avoids the four that break it: the boot switch while it is on and
    the foreground switch is off, OK in the warning, and the two switches that leave the boot flag
    without the foreground flag. -/
theorem afterAction_iff (store : Store) (actions : List Action) :
    Machine.Along step (AfterAction store) (openScreen store) actions ↔
      Machine.Along step (Avoids store) (openScreen store) actions := by
  refine Machine.Along.after_iff (I := fun s : Screen => s.WrittenThrough ∧
    (store.BootImpliesForeground → s.store.BootImpliesForeground)) ?_
    ⟨writtenThrough_openScreen store, fun h => h⟩ actions
  intro s a ⟨hthrough, hboot⟩
  cases hstep : step s a with
  | none =>
    have havoids := avoids_of_step_eq_none hstep
    exact iff_of_true (fun t ht => by cases ht) ⟨havoids.1, fun _ => havoids.2⟩
  | some t =>
    have hthrough := writtenThrough_step hthrough hstep
    constructor
    · intro h
      obtain ⟨ht, ht'⟩ := h t rfl
      refine ⟨hthrough.mp ht, ?_⟩
      intro hstore
      exact (bootImpliesForeground_step (hboot hstore) hstep).mp (ht' hstore)
    · intro h t' ht'
      cases ht'
      refine ⟨hthrough.mpr h.1, ?_⟩
      intro hstore
      exact (bootImpliesForeground_step (hboot hstore) hstep).mpr (h.2 hstore)

/-- The stores of a new installation. -/
def emptyStore : Store where
  bools := fun _ => none
  choices := fun _ => none
  texts := fun _ => none

/-- Commands by intent are switched on and the warning is confirmed, which is not saved; and the
    service is taken out of the foreground before it is started on boot, which nothing stops. -/
theorem afterAction_emptyStore :
    ¬ Machine.Along step (AfterAction emptyStore) (openScreen emptyStore)
        [.toggle .enableExecIntent true, .confirm] ∧
      ¬ Machine.Along step (AfterAction emptyStore) (openScreen emptyStore)
        [.toggle .runInForeground false, .toggle .runOnBoot true] := by
  constructor
  · intro h
    obtain ⟨hconfirm, -⟩ := h.2 _ rfl
    obtain ⟨ht, -⟩ := hconfirm _ rfl
    cases ht.checked .enableExecIntent
  · intro h
    obtain ⟨hboot, -⟩ := h.2 _ rfl
    obtain ⟨-, ht⟩ := hboot _ rfl
    cases ht (fun hnone => by cases hnone) rfl

end Sshd4a.Settings
