import Sshd4a.Lib.LinkedMap
import Sshd4a.Lib.Machine
import Sshd4a.Lib.Objects
import Sshd4a.Prefs.SortSettings

/-!
# Entering and leaving groups of settings (`SettingsAdapter`)

The adapter shows one list of settings at a time. Entering a group is to keep the list on a
stack and to show that of the group; leaving it is to show again what was shown before.

The list is a field that is never assigned again, so there is one list object. What goes on the
stack is a reference to it, and it is then cleared and filled with the settings of the group.
Leaving the group clears it once more and adds what is on the stack, which is the list that was
just cleared: after every `popGroup` that finds something on the stack, the list is empty
(`popGroup_cons`).

The rest of the promise holds. What is displayed are the visible settings of the list, and
`popGroup` answers `false` when every group was left. `navigation_iff` is about whole runs: a run
keeps all of the promise exactly if the groups that are left were entered from an empty list,
and when that is the case can be told from the calls alone (`Restores`).
-/

namespace Sshd4a

open Machine

/-! ## `SettingsAdapter.java` -/

/-- A setting with the flags the adapter keeps for it. -/
structure VHSetting where
  setting : Setting
  enabled : Bool := true
  visible : Bool := true

instance : Inhabited VHSetting := ⟨{ setting := .item [] none }⟩

/-- What a `RecyclerView` is told. -/
inductive Notification
  | itemChanged (position : Nat)
  | dataSetChanged
deriving DecidableEq, Repr

/-- The adapter, with the objects it has references to. The list it displays is its own. -/
structure Adapter where
  sortRoot : Bool
  items : ObjectStore VHSetting
  lists : ObjectStore (List Ref)
  /-- The top of the stack is in front. -/
  backStack : List Ref
  settings : Ref
  displayedList : List Ref
  notified : List Notification

namespace Adapter

/-- What is in the list. -/
def entries (a : Adapter) : List Ref := a.lists.content a.settings

/-- `VHSetting.isVisible`. -/
def isVisible (a : Adapter) (r : Ref) : Bool := (a.items.content r).visible

def updateDisplayedList (a : Adapter) : Adapter :=
  { a with displayedList := a.entries.filter a.isVisible }

/-- `VHSetting.wrap`: new objects in a new list. -/
def wrap (a : Adapter) (list : List Setting) : Adapter × Ref :=
  let made := a.items.newAll (list.map fun setting => { setting := setting })
  let wrapped := a.lists.new made.2
  ({ a with items := made.1, lists := wrapped.1 }, wrapped.2)

/-- `setItems`: `clear`, and then `addAll` of what is in the other list by now. -/
def setItems (a : Adapter) (vhSettings : Ref) : Adapter :=
  let cleared := a.lists.write a.settings []
  let filled := cleared.write a.settings
    (cleared.content a.settings ++ cleared.content vhSettings)
  let shown := { a with lists := filled }.updateDisplayedList
  { shown with notified := shown.notified ++ [.dataSetChanged] }

/-- The constructor; `none` if sorting ends with an exception. -/
def create (settings : List Setting) (sortRoot : Bool) : Option Adapter :=
  (sortSettings sortRoot settings).map fun sorted =>
    let wrapped := wrap ⟨sortRoot, .empty, .empty, [], 0, [], []⟩ sorted
    { wrapped.1 with settings := wrapped.2 }.updateDisplayedList

/-- `navigateTo`, with the settings of the group. If sorting them ends with an exception, the
    stack has grown all the same. -/
def navigateTo (a : Adapter) (subSettings : List Setting) : Adapter :=
  let pushed := { a with backStack := a.settings :: a.backStack }
  match sortSettings a.sortRoot subSettings with
  | none => pushed
  | some sorted =>
    let wrapped := pushed.wrap sorted
    wrapped.1.setItems wrapped.2

/-- `popGroup`, with its answer. -/
def popGroup (a : Adapter) : Adapter × Bool :=
  match a.backStack with
  | [] => (a, false)
  | previous :: rest => ({ a with backStack := rest }.setItems previous, true)

/-- `findPosition`. -/
def findPosition (a : Adapter) (key : JString) : Option Nat :=
  a.displayedList.findIdx? fun r => (a.items.content r).setting.getKey == key

/-- One round of the loop of `setEnabled`. -/
def enableItem (enabled : Bool) (keys : List JString) (a : Adapter) (r : Ref) : Adapter :=
  let p := a.items.content r
  if keys.contains p.setting.getKey ∧ p.enabled ≠ enabled then
    let changed := { a with items := a.items.write r { p with enabled := enabled } }
    { changed with notified := changed.notified ++
        ((changed.findPosition p.setting.getKey).map Notification.itemChanged).toList }
  else a

def setEnabled (a : Adapter) (enabled : Bool) (keys : List JString) : Adapter :=
  a.entries.foldl (enableItem enabled keys) a

/-- One round of the loop of `setVisible`, with `hasChanged`. A null in the map is a no. -/
def showItem (pairs : LinkedMap JString (Option Bool)) (state : ObjectStore VHSetting × Bool)
    (r : Ref) : ObjectStore VHSetting × Bool :=
  let p := state.1.content r
  match pairs.get? p.setting.getKey with
  | none => state
  | some value =>
    let newState := value.getD false
    if p.visible ≠ newState then (state.1.write r { p with visible := newState }, true)
    else state

def setVisible (a : Adapter) (pairs : LinkedMap JString (Option Bool)) : Adapter :=
  let shown := a.entries.foldl (showItem pairs) (a.items, false)
  let changed := { a with items := shown.1 }
  if shown.2 then
    let updated := changed.updateDisplayedList
    { updated with notified := updated.notified ++ [.dataSetChanged] }
  else changed

/-! ## The promise -/

/-- The list as it is: its entries in their order, with their flags. -/
def view (a : Adapter) : List (Ref × VHSetting) := a.entries.map fun r => (r, a.items.content r)

/-- What is displayed are the visible entries. -/
def Shown (a : Adapter) : Prop := a.displayedList = a.entries.filter a.isVisible

end Adapter

inductive AdapterCall
  | navigateTo (subSettings : List Setting)
  | popGroup
  | setEnabled (enabled : Bool) (keys : List JString)
  | setVisible (pairs : LinkedMap JString (Option Bool))

def Adapter.call (a : Adapter) : AdapterCall → Adapter
  | .navigateTo subSettings => a.navigateTo subSettings
  | .popGroup => a.popGroup.1
  | .setEnabled enabled keys => a.setEnabled enabled keys
  | .setVisible pairs => a.setVisible pairs

/-- An adapter, and how its list was just before each `navigateTo` that was not popped yet. -/
structure Navigation where
  adapter : Adapter
  saved : List (List (Ref × VHSetting))

namespace Navigation

def savedAfter (n : Navigation) : AdapterCall → List (List (Ref × VHSetting))
  | .navigateTo _ => n.adapter.view :: n.saved
  | .popGroup => n.saved.tail
  | _ => n.saved

def step (n : Navigation) (c : AdapterCall) : Option Navigation :=
  some ⟨n.adapter.call c, n.savedAfter c⟩

/-- What a call is to do: the visible settings are displayed, and a `popGroup` answers whether
    there is a `navigateTo` to undo, and undoes it. -/
def Kept (n : Navigation) (c : AdapterCall) : Prop :=
  (n.adapter.call c).Shown ∧
    (c = .popGroup →
      (n.adapter.popGroup.2 = false ↔ n.saved = []) ∧
      ∀ list rest, n.saved = list :: rest → (n.adapter.call c).view = list)

end Navigation

/-- A run of calls from which everything comes back: each `navigateTo` that is popped was called
    with an empty list. `empty` says whether the list is, and `below` whether it was before the
    calls that were not popped yet; both follow from the calls. -/
def Restores (sortRoot : Bool) : Bool → List Bool → List AdapterCall → Prop
  | _, _, [] => True
  | empty, below, .navigateTo subSettings :: calls =>
    Restores sortRoot
      (if (sortSettings sortRoot subSettings).isSome then subSettings.isEmpty else empty)
      (empty :: below) calls
  | empty, [], .popGroup :: calls => Restores sortRoot empty [] calls
  | _, wasEmpty :: below, .popGroup :: calls =>
    wasEmpty = true ∧ Restores sortRoot true below calls
  | empty, below, .setEnabled _ _ :: calls => Restores sortRoot empty below calls
  | empty, below, .setVisible _ :: calls => Restores sortRoot empty below calls

/-! ## One call -/

namespace Adapter

section
variable {a b : Adapter}

/-- Nothing changed but flags of items, and none of those that say what is visible. -/
structure SameList (a b : Adapter) : Prop where
  sortRoot : b.sortRoot = a.sortRoot
  lists : b.lists = a.lists
  backStack : b.backStack = a.backStack
  settings : b.settings = a.settings
  displayedList : b.displayedList = a.displayedList
  isVisible : ∀ r, b.isVisible r = a.isVisible r

theorem SameList.refl (a : Adapter) : SameList a a := ⟨rfl, rfl, rfl, rfl, rfl, fun _ => rfl⟩

theorem SameList.trans {c : Adapter} (h : SameList a b) (h' : SameList b c) : SameList a c where
  sortRoot := h'.sortRoot.trans h.sortRoot
  lists := h'.lists.trans h.lists
  backStack := h'.backStack.trans h.backStack
  settings := h'.settings.trans h.settings
  displayedList := h'.displayedList.trans h.displayedList
  isVisible := fun r => (h'.isVisible r).trans (h.isVisible r)

theorem SameList.entries (h : SameList a b) : b.entries = a.entries := by
  unfold Adapter.entries
  rw [h.lists, h.settings]

theorem SameList.shown (h : SameList a b) (ha : a.Shown) : b.Shown := by
  unfold Shown at *
  rw [h.displayedList, ha, h.entries, funext h.isVisible]

theorem sameList_enableItem (enabled : Bool) (keys : List JString) (a : Adapter) (r : Ref) :
    SameList a (a.enableItem enabled keys r) := by
  unfold enableItem
  dsimp only
  split
  · refine ⟨rfl, rfl, rfl, rfl, rfl, ?_⟩
    intro q
    unfold Adapter.isVisible
    by_cases hq : q = r
    · rw [hq, ObjectStore.content_write_self]
    · rw [ObjectStore.content_write_of_ne _ hq]
  · exact SameList.refl a

theorem sameList_setEnabled (a : Adapter) (enabled : Bool) (keys : List JString) :
    SameList a (a.setEnabled enabled keys) := by
  have hfold : ∀ (refs : List Ref) (b : Adapter),
      SameList b (refs.foldl (enableItem enabled keys) b) := by
    intro refs
    induction refs with
    | nil => exact SameList.refl
    | cons r refs ih => exact fun b => (sameList_enableItem enabled keys b r).trans (ih _)
  exact hfold _ a

/-- Where nothing has changed, nothing was written. -/
theorem showItem_unchanged (pairs : LinkedMap JString (Option Bool)) (refs : List Ref)
    (state : ObjectStore VHSetting × Bool)
    (h : (refs.foldl (showItem pairs) state).2 = false) :
    refs.foldl (showItem pairs) state = state := by
  -- `hasChanged` is never taken back
  have hstep : ∀ (s : ObjectStore VHSetting × Bool) (r : Ref),
      showItem pairs s r = s ∨ (showItem pairs s r).2 = true := by
    intro s r
    unfold showItem
    dsimp only
    split
    · exact Or.inl rfl
    · split
      · exact Or.inr rfl
      · exact Or.inl rfl
  have hmono : ∀ (refs : List Ref) (s : ObjectStore VHSetting × Bool), s.2 = true →
      (refs.foldl (showItem pairs) s).2 = true := by
    intro refs
    induction refs with
    | nil => exact fun s hs => hs
    | cons r refs ih =>
      intro s hs
      rw [List.foldl_cons]
      rcases hstep s r with hsame | htrue
      · rw [hsame]
        exact ih s hs
      · exact ih _ htrue
  induction refs with
  | nil => rfl
  | cons r refs ih =>
    rw [List.foldl_cons] at h ⊢
    rcases hstep state r with hsame | htrue
    · rw [hsame] at h ⊢
      exact ih h
    · rw [hmono refs _ htrue] at h
      cases h

/-- `setVisible` keeps the entries, and what is displayed is right if it was. -/
theorem setVisible_spec (a : Adapter) (pairs : LinkedMap JString (Option Bool)) :
    (a.setVisible pairs).sortRoot = a.sortRoot ∧ (a.setVisible pairs).lists = a.lists ∧
      (a.setVisible pairs).backStack = a.backStack ∧
      (a.setVisible pairs).settings = a.settings ∧ (a.Shown → (a.setVisible pairs).Shown) := by
  unfold setVisible
  dsimp only
  split
  · exact ⟨rfl, rfl, rfl, rfl, fun _ => rfl⟩
  · rename_i hunchanged
    rw [Bool.not_eq_true] at hunchanged
    rw [showItem_unchanged _ _ _ hunchanged]
    exact ⟨rfl, rfl, rfl, rfl, id⟩

/-- Filling the list from another one. -/
theorem entries_setItems (a : Adapter) {r : Ref} (h : r ≠ a.settings) :
    (a.setItems r).entries = a.lists.content r := by
  show ((a.lists.write a.settings []).write a.settings _).content a.settings = _
  rw [ObjectStore.content_write_self, ObjectStore.content_write_self,
    ObjectStore.content_write_of_ne _ h, List.nil_append]

/-- **Filling the list from itself** leaves nothing: it was cleared before. -/
theorem entries_setItems_self (a : Adapter) : (a.setItems a.settings).entries = [] := by
  show ((a.lists.write a.settings []).write a.settings _).content a.settings = _
  rw [ObjectStore.content_write_self, ObjectStore.content_write_self, List.nil_append]

/-- The stack has references to the one list there is. -/
structure OneList (a : Adapter) : Prop where
  stacked : ∀ r ∈ a.backStack, r = a.settings
  made : a.settings < a.lists.next

theorem OneList.pushed (h : a.OneList) : ∀ r ∈ a.settings :: a.backStack, r = a.settings := by
  intro r hr
  rcases List.mem_cons.mp hr with rfl | hr
  · rfl
  · exact h.stacked r hr

theorem navigateTo_none {subSettings : List Setting}
    (hsort : sortSettings a.sortRoot subSettings = none) :
    a.navigateTo subSettings = { a with backStack := a.settings :: a.backStack } := by
  unfold navigateTo
  rw [hsort]

theorem length_wrap (a : Adapter) (list : List Setting) :
    ((a.wrap list).1.lists.content (a.wrap list).2).length = list.length := by
  unfold wrap
  dsimp only
  rw [ObjectStore.content_new_self, ObjectStore.length_newAll, List.length_map]

/-- **Entering a group**: the list is that of the group, in new objects. -/
theorem navigateTo_some (h : a.OneList) {subSettings sorted : List Setting}
    (hsort : sortSettings a.sortRoot subSettings = some sorted) :
    (a.navigateTo subSettings).OneList ∧ (a.navigateTo subSettings).Shown ∧
      (a.navigateTo subSettings).entries.length = subSettings.length ∧
      (a.navigateTo subSettings).sortRoot = a.sortRoot ∧
      (a.navigateTo subSettings).backStack = a.settings :: a.backStack := by
  unfold navigateTo
  rw [hsort]
  dsimp only
  refine ⟨⟨h.pushed, Nat.lt_succ_of_lt h.made⟩, rfl, ?_, rfl, rfl⟩
  rw [← (sortSettings_perm hsort).length_eq, entries_setItems]
  · exact length_wrap _ sorted
  · exact Nat.ne_of_gt h.made

/-- **Leaving a group**: the list is empty. -/
theorem popGroup_cons (h : a.OneList) {previous : Ref} {rest : List Ref}
    (hstack : a.backStack = previous :: rest) :
    a.popGroup.1.OneList ∧ a.popGroup.1.Shown ∧ a.popGroup.1.entries = [] ∧
      a.popGroup.1.sortRoot = a.sortRoot ∧ a.popGroup.1.backStack = rest ∧
      a.popGroup.2 = true := by
  obtain rfl : previous = a.settings := h.stacked previous (by simp [hstack])
  unfold popGroup
  rw [hstack]
  refine ⟨⟨?_, h.made⟩, rfl, ?_, rfl, rfl, rfl⟩
  · intro r hr
    exact h.stacked r (by rw [hstack]; exact List.mem_cons_of_mem _ hr)
  · exact entries_setItems_self { a with backStack := rest }

theorem popGroup_nil (hstack : a.backStack = []) : a.popGroup = (a, false) := by
  unfold popGroup
  rw [hstack]

theorem create_spec {settings : List Setting} {sortRoot : Bool}
    (h : create settings sortRoot = some a) :
    a.OneList ∧ a.Shown ∧ a.entries.length = settings.length ∧ a.sortRoot = sortRoot ∧
      a.backStack = [] := by
  obtain ⟨sorted, hsort, rfl⟩ := Option.map_eq_some_iff.mp h
  refine ⟨⟨by simp [updateDisplayedList, wrap], Nat.lt_succ_self _⟩, rfl, ?_, rfl, rfl⟩
  rw [← (sortSettings_perm hsort).length_eq]
  exact length_wrap _ sorted

end

end Adapter

/-! ## Runs -/

/-- What the calls alone say about an adapter, and what it relies on. -/
structure Tracks (sortRoot : Bool) (n : Navigation) (empty : Bool) (below : List Bool) : Prop where
  oneList : n.adapter.OneList
  shown : n.adapter.Shown
  sortRoot : n.adapter.sortRoot = sortRoot
  depth : n.adapter.backStack.length = n.saved.length
  empty : n.adapter.view.isEmpty = empty
  below : n.saved.map List.isEmpty = below

section
variable {sortRoot : Bool} {n : Navigation} {empty : Bool} {below : List Bool}

theorem isEmpty_view (a : Adapter) : a.view.isEmpty = a.entries.isEmpty := by
  unfold Adapter.view
  rw [List.isEmpty_map]

theorem isEmpty_view_of_length {a : Adapter} {list : List Setting}
    (h : a.entries.length = list.length) : a.view.isEmpty = list.isEmpty := by
  rw [isEmpty_view, Bool.eq_iff_iff, List.isEmpty_iff_length_eq_zero,
    List.isEmpty_iff_length_eq_zero, h]

theorem kept_of_shown {c : AdapterCall} (hc : c ≠ .popGroup) (h : (n.adapter.call c).Shown) :
    n.Kept c := ⟨h, fun heq => absurd heq hc⟩

theorem Tracks.navigateTo (h : Tracks sortRoot n empty below) (subSettings : List Setting) :
    n.Kept (.navigateTo subSettings) ∧
      Tracks sortRoot ⟨n.adapter.call (.navigateTo subSettings), n.savedAfter (.navigateTo subSettings)⟩
        (if (sortSettings sortRoot subSettings).isSome then subSettings.isEmpty else empty)
        (empty :: below) := by
  have hbelow : (n.adapter.view :: n.saved).map List.isEmpty = empty :: below := by
    rw [List.map_cons, h.empty, h.below]
  cases hsort : sortSettings sortRoot subSettings with
  | none =>
    have hcall : n.adapter.call (.navigateTo subSettings) =
        { n.adapter with backStack := n.adapter.settings :: n.adapter.backStack } :=
      Adapter.navigateTo_none (by rw [h.sortRoot, hsort])
    rw [hcall]
    refine ⟨kept_of_shown (by simp) ?_, ⟨h.oneList.pushed, h.oneList.made⟩, h.shown, h.sortRoot, ?_,
      h.empty, hbelow⟩
    · rw [hcall]
      exact h.shown
    · exact congrArg (· + 1) h.depth
  | some sorted =>
    rw [← h.sortRoot] at hsort
    obtain ⟨hone, hshown, hlen, hroot, hstack⟩ := Adapter.navigateTo_some h.oneList hsort
    refine ⟨kept_of_shown (by simp) hshown, hone, hshown, hroot.trans h.sortRoot, ?_, ?_, hbelow⟩
    · show (n.adapter.navigateTo subSettings).backStack.length = _
      rw [hstack]
      exact congrArg (· + 1) h.depth
    · exact isEmpty_view_of_length hlen

/-- The flags of settings change neither the list nor the stack. -/
theorem Tracks.flags (h : Tracks sortRoot n empty below) {b : Adapter}
    (hroot : b.sortRoot = n.adapter.sortRoot) (hlists : b.lists = n.adapter.lists)
    (hstack : b.backStack = n.adapter.backStack) (hsettings : b.settings = n.adapter.settings)
    (hshown : b.Shown) : Tracks sortRoot ⟨b, n.saved⟩ empty below where
  oneList := by
    refine ⟨?_, ?_⟩
    · rw [hstack, hsettings]
      exact h.oneList.stacked
    · rw [hsettings, hlists]
      exact h.oneList.made
  shown := hshown
  sortRoot := hroot.trans h.sortRoot
  depth := by
    rw [← h.depth]
    exact congrArg List.length hstack
  empty := by
    rw [← h.empty, isEmpty_view, isEmpty_view]
    unfold Adapter.entries
    rw [hlists, hsettings]
  below := h.below

/-- With every group left, `popGroup` says so and does nothing. -/
theorem Tracks.popGroup_nil (h : Tracks sortRoot n empty []) :
    n.Kept .popGroup ∧
      Tracks sortRoot ⟨n.adapter.call .popGroup, n.savedAfter .popGroup⟩ empty [] := by
  have hsaved : n.saved = [] := List.map_eq_nil_iff.mp h.below
  have hstack : n.adapter.backStack = [] := by
    rw [← List.length_eq_zero_iff, h.depth, hsaved]
    rfl
  have hpop := Adapter.popGroup_nil hstack
  have hcall : n.adapter.call .popGroup = n.adapter := congrArg Prod.fst hpop
  have hafter : n.savedAfter .popGroup = n.saved := by
    show n.saved.tail = n.saved
    rw [hsaved]
    rfl
  refine ⟨⟨?_, fun _ => ⟨?_, ?_⟩⟩, ?_⟩
  · rw [hcall]
    exact h.shown
  · rw [hpop, hsaved]
    exact iff_of_true rfl rfl
  · intro list rest hlist
    rw [hsaved] at hlist
    cases hlist
  · rw [hcall, hafter]
    exact h

/-- **Leaving a group brings back an empty list**, and that is right only if it was empty. -/
theorem Tracks.popGroup {wasEmpty : Bool} (h : Tracks sortRoot n empty (wasEmpty :: below)) :
    (n.Kept .popGroup ↔ wasEmpty = true) ∧
      Tracks sortRoot ⟨n.adapter.call .popGroup, n.savedAfter .popGroup⟩ true below := by
  obtain ⟨adapter, saved⟩ := n
  cases saved with
  | nil => cases h.below
  | cons list rest =>
    obtain ⟨hwas, hbelow⟩ := List.cons.inj h.below
    cases hstack : adapter.backStack with
    | nil =>
      have := h.depth
      rw [hstack] at this
      cases this
    | cons previous stack =>
      obtain ⟨hone, hshown, hentries, hroot, hrest, htrue⟩ := Adapter.popGroup_cons h.oneList hstack
      have hview : adapter.popGroup.1.view = [] := by
        unfold Adapter.view
        rw [hentries]
        rfl
      refine ⟨?_, hone, hshown, hroot.trans h.sortRoot, ?_, ?_, hbelow⟩
      · rw [← hwas, List.isEmpty_iff]
        constructor
        · intro hkept
          exact ((hkept.2 rfl).2 list rest rfl).symm.trans hview
        · rintro rfl
          refine ⟨hshown, fun _ => ⟨?_, ?_⟩⟩
          · simp [htrue]
          · intro list' rest' hlist
            rw [← (List.cons.inj hlist).1]
            exact hview
      · have hdepth := h.depth
        rw [hstack] at hdepth
        show adapter.popGroup.1.backStack.length = rest.length
        rw [hrest]
        exact Nat.succ.inj hdepth
      · show adapter.popGroup.1.view.isEmpty = true
        rw [hview]
        rfl

theorem along_cons {c : AdapterCall} {calls : List AdapterCall} :
    Along Navigation.step Navigation.Kept n (c :: calls) ↔
      n.Kept c ∧
        Along Navigation.step Navigation.Kept ⟨n.adapter.call c, n.savedAfter c⟩ calls := by
  rw [Along]
  refine and_congr_right fun _ => ⟨fun h => h _ rfl, ?_⟩
  intro h n' hn'
  rw [← Option.some.inj hn']
  exact h

theorem Tracks.along_iff (h : Tracks sortRoot n empty below) (calls : List AdapterCall) :
    Along Navigation.step Navigation.Kept n calls ↔ Restores sortRoot empty below calls := by
  induction calls generalizing n empty below with
  | nil => simp [Along, Restores]
  | cons c calls ih =>
    rw [along_cons]
    cases c with
    | navigateTo subSettings =>
      obtain ⟨hkept, hnext⟩ := h.navigateTo subSettings
      rw [Restores]
      exact (and_iff_right hkept).trans (ih hnext)
    | popGroup =>
      cases below with
      | nil =>
        obtain ⟨hkept, hnext⟩ := h.popGroup_nil
        rw [Restores]
        exact (and_iff_right hkept).trans (ih hnext)
      | cons wasEmpty below =>
        obtain ⟨hkept, hnext⟩ := h.popGroup
        rw [Restores, hkept, ih hnext]
    | setEnabled enabled keys =>
      have hsame := Adapter.sameList_setEnabled n.adapter enabled keys
      have hshown := hsame.shown h.shown
      have hkept : n.Kept (.setEnabled enabled keys) := kept_of_shown (by simp) hshown
      have hnext := h.flags hsame.sortRoot hsame.lists hsame.backStack hsame.settings hshown
      rw [Restores]
      exact (and_iff_right hkept).trans (ih hnext)
    | setVisible pairs =>
      obtain ⟨hroot, hlists, hstack, hsettings, hkeep⟩ := Adapter.setVisible_spec n.adapter pairs
      have hshown := hkeep h.shown
      have hkept : n.Kept (.setVisible pairs) := kept_of_shown (by simp) hshown
      have hnext := h.flags hroot hlists hstack hsettings hshown
      rw [Restores]
      exact (and_iff_right hkept).trans (ih hnext)

/-- **Navigation is a stack exactly in those runs** in which the groups that are left were entered
    from an empty list. -/
theorem navigation_iff (settings : List Setting) (sortRoot : Bool) (a : Adapter)
    (h : Adapter.create settings sortRoot = some a) (calls : List AdapterCall) :
    Along Navigation.step Navigation.Kept ⟨a, []⟩ calls ↔
      Restores sortRoot settings.isEmpty [] calls := by
  obtain ⟨hone, hshown, hlen, hroot, hstack⟩ := Adapter.create_spec h
  have htracks : Tracks sortRoot ⟨a, []⟩ settings.isEmpty [] := by
    refine ⟨hone, hshown, hroot, ?_, isEmpty_view_of_length hlen, rfl⟩
    show a.backStack.length = 0
    rw [hstack]
    rfl
  exact htracks.along_iff calls

/-- An adapter without settings: a group is entered and left. -/
theorem navigation_iff_noSettings :
    ∃ a, Adapter.create [] false = some a ∧
      Along Navigation.step Navigation.Kept ⟨a, []⟩
        [.navigateTo [.item ['b'] none], .popGroup, .popGroup] := by
  refine ⟨_, rfl, (navigation_iff [] false _ rfl _).mpr ?_⟩
  simp [Restores]

/-- A list with one setting is empty after a group was entered and left. -/
theorem navigation_lost :
    ∃ a, Adapter.create [.item ['a'] none] false = some a ∧
      a.view = [(0, { setting := .item ['a'] none })] ∧
      (a.call (.navigateTo [.item ['b'] none])).popGroup.2 = true ∧
      ((a.call (.navigateTo [.item ['b'] none])).call .popGroup).view = [] ∧
      ¬ Along Navigation.step Navigation.Kept ⟨a, []⟩
        [.navigateTo [.item ['b'] none], .popGroup] := by
  refine ⟨_, rfl, rfl, rfl, rfl, ?_⟩
  intro h
  have hlist := ((h.2 _ rfl).1.2 rfl).2 _ _ rfl
  exact absurd (congrArg List.length hlist) (by decide)

end

end Sshd4a
