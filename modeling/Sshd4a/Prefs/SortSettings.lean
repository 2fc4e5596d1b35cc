import Sshd4a.App.SshdSettings
import Sshd4a.Lib.StableSort

/-!
# Sorting a list of settings by sections (`SettingsAdapter.sortSettings`)

A list of settings is divided by its headers, and each header says whether what follows it is to
be sorted by title. The loop of the source looks for the next header in the very list it sorts
parts of. What it has sorted lies before the header it is at and what it has not seen yet is as
it was, so it never meets a header that has moved: `sortFrom` is the loop read that way, over
the part since the last header and the rest, and `sortLoop_eq` says that it is the same.

`sortSettings_sections` is what comes of it for every section: the headers stay, and what is
between two of them is sorted, stably, or left alone.
-/

namespace Sshd4a

open StableSort

/-! ## `Setting.java`, `HeaderSetting.java`, `SettingsGroup.java` -/

/-- A setting, as far as a list of settings looks at it. Titles can be null. -/
inductive Setting
  | header (key : JString) (title : Option JString) (sorted : Bool)
  | group (key : JString) (title : Option JString) (subSettings : List Setting)
  | item (key : JString) (title : Option JString)

namespace Setting

def getKey : Setting → JString
  | header key _ _ => key
  | group key _ _ => key
  | item key _ => key

def getTitle : Setting → Option JString
  | header _ title _ => title
  | group _ title _ => title
  | item _ title => title

/-- `getType() == Setting.Type.Header`. -/
def isHeader : Setting → Bool
  | header _ _ _ => true
  | _ => false

/-- `((HeaderSetting) setting).isSorted()`; only headers are asked. -/
def isSorted : Setting → Bool
  | header _ _ sorted => sorted
  | _ => false

end Setting

/-! ## `SettingsAdapter.java` -/

/-- The `char`s of a character: itself, or two surrogates. -/
def utf16Char (c : Char) : List Nat :=
  if c.toNat < 0x10000 then [c.toNat]
  else [0xD800 + (c.toNat - 0x10000) / 0x400, 0xDC00 + (c.toNat - 0x10000) % 0x400]

/-- The `char`s of a string, in whose order `String.compareTo` compares. -/
def utf16 (s : JString) : List Nat := s.flatMap utf16Char

/-- `Comparator.comparing(Setting::getTitle)` compares by this. -/
def titleKey (setting : Setting) : List Nat := utf16 (setting.getTitle.getD [])

/-- `List.sort` with that comparator. With two elements or more each of them is compared with
    another, and a null title ends it with a `NullPointerException`. -/
def sortByTitle (list : List Setting) : Option (List Setting) :=
  if 2 ≤ list.length ∧ list.any (fun s => s.getTitle.isNone) then none
  else some (list.mergeSort (keyLe titleKey))

/-- `list.subList(from, to).sort(..)`. -/
def sortSubList (list : List Setting) (first last : Nat) : Option (List Setting) :=
  (sortByTitle ((list.take last).drop first)).map fun sorted =>
    list.take first ++ (sorted ++ list.drop last)

/-- `sortGroup`; `none` is an exception. -/
def sortGroup (sortRoot : Bool) (list : List Setting) (start stop : Nat) : Option (List Setting) :=
  if stop ≤ start then some list
  else
    match list[start]? with
    | none => none
    | some firstElement =>
      if firstElement.isHeader then
        if firstElement.isSorted ∧ 2 < stop - start then sortSubList list (start + 1) stop
        else some list
      else if sortRoot then sortSubList list start stop
      else some list

/-- The loop of `sortSettings`, with `rounds` values of `i` to go. -/
def sortLoop (sortRoot : Bool) : Nat → Nat → Nat → List Setting → Option (List Setting)
  | 0, _, _, result => some result
  | rounds + 1, i, start, result =>
    if i = result.length ∨ (result[i]?).any Setting.isHeader then
      match sortGroup sortRoot result start i with
      | none => none
      | some result => sortLoop sortRoot rounds (i + 1) i result
    else sortLoop sortRoot rounds (i + 1) start result

/-- `sortSettings`. -/
def sortSettings (sortRoot : Bool) (settings : List Setting) : Option (List Setting) :=
  sortLoop sortRoot (settings.length + 1) 0 0 settings

/-! ## Nothing is lost, whatever the titles -/

theorem sortSubList_perm {list sorted : List Setting} {first last : Nat} (hle : first ≤ last)
    (h : sortSubList list first last = some sorted) : sorted.Perm list := by
  obtain ⟨part, hpart, rfl⟩ := Option.map_eq_some_iff.mp h
  have hperm : part.Perm ((list.take last).drop first) := by
    unfold sortByTitle at hpart
    split at hpart
    · cases hpart
    · cases hpart
      exact List.mergeSort_perm _ _
  have hsplit : list.take first ++ ((list.take last).drop first ++ list.drop last) = list := by
    rw [← List.append_assoc]
    nth_rewrite 1 [← Nat.min_eq_left hle, ← List.take_take]
    rw [List.take_append_drop, List.take_append_drop]
  have hall := (hperm.append_right (list.drop last)).append_left (list.take first)
  rwa [hsplit] at hall

theorem sortGroup_perm {sortRoot : Bool} {list sorted : List Setting} {start stop : Nat}
    (h : sortGroup sortRoot list start stop = some sorted) : sorted.Perm list := by
  have hsame : some list = some sorted → sorted.Perm list := by
    intro heq
    rw [Option.some.inj heq]
  unfold sortGroup at h
  split at h
  · exact hsame h
  · rename_i hlt
    split at h
    · cases h
    · split at h
      · split at h
        · exact sortSubList_perm (by omega) h
        · exact hsame h
      · split at h
        · exact sortSubList_perm (by omega) h
        · exact hsame h

theorem sortLoop_perm {sortRoot : Bool} {rounds i start : Nat} {list sorted : List Setting}
    (h : sortLoop sortRoot rounds i start list = some sorted) : sorted.Perm list := by
  induction rounds generalizing i start list with
  | zero =>
    rw [sortLoop, Option.some.injEq] at h
    rw [h]
  | succ rounds ih =>
    rw [sortLoop] at h
    split at h
    · split at h
      · cases h
      · rename_i hgroup
        exact (ih h).trans (sortGroup_perm hgroup)
    · exact ih h

theorem sortSettings_perm {sortRoot : Bool} {settings sorted : List Setting}
    (h : sortSettings sortRoot settings = some sorted) : sorted.Perm settings := sortLoop_perm h

/-! ## The loop, over what it is at and what is to come -/

def sortItems (sorted : Bool) (items : List Setting) : List Setting :=
  if sorted then items.mergeSort (keyLe titleKey) else items

/-- The part since the last header, sorted if it is to be. -/
def sortPart (sortRoot : Bool) : List Setting → List Setting
  | [] => []
  | first :: items =>
    if first.isHeader then first :: sortItems first.isSorted items
    else sortItems sortRoot (first :: items)

/-- The loop at an element that is no header, or at the next header. -/
def sortFrom (sortRoot : Bool) (part : List Setting) : List Setting → List Setting
  | [] => sortPart sortRoot part
  | s :: rest =>
    if s.isHeader then sortPart sortRoot part ++ sortFrom sortRoot [s] rest
    else sortFrom sortRoot (part ++ [s]) rest

section
variable {sortRoot : Bool}

theorem sortItems_perm (sorted : Bool) (items : List Setting) :
    (sortItems sorted items).Perm items := by
  cases sorted with
  | true => exact List.mergeSort_perm _ _
  | false => exact List.Perm.refl items

theorem sortPart_perm (part : List Setting) : (sortPart sortRoot part).Perm part := by
  cases part with
  | nil => exact List.Perm.refl []
  | cons first items =>
    rw [sortPart]
    split
    · exact (sortItems_perm _ items).cons first
    · exact sortItems_perm _ _

theorem sortFrom_perm (sortRoot : Bool) (part rest : List Setting) :
    (sortFrom sortRoot part rest).Perm (part ++ rest) := by
  induction rest generalizing part with
  | nil =>
    rw [sortFrom, List.append_nil]
    exact sortPart_perm part
  | cons s rest ih =>
    rw [sortFrom]
    split
    · exact (sortPart_perm part).append (ih [s])
    · have := ih (part ++ [s])
      rwa [List.append_assoc] at this

theorem sortByTitle_of_titles {list : List Setting} (h : ∀ s ∈ list, s.getTitle ≠ none) :
    sortByTitle list = some (list.mergeSort (keyLe titleKey)) := by
  unfold sortByTitle
  rw [if_neg]
  rintro ⟨-, hany⟩
  obtain ⟨s, hs, hnone⟩ := List.any_eq_true.mp hany
  exact h s hs (Option.isNone_iff_eq_none.mp hnone)

/-- Sorting a part of a list, between what is before it and what is behind it. -/
theorem sortSubList_append (before : List Setting) {list : List Setting} (after : List Setting)
    (h : ∀ s ∈ list, s.getTitle ≠ none) :
    sortSubList (before ++ (list ++ after)) before.length (before.length + list.length) =
      some (before ++ (list.mergeSort (keyLe titleKey) ++ after)) := by
  have htake : (before ++ (list ++ after)).take (before.length + list.length) = before ++ list := by
    rw [← List.append_assoc, ← List.length_append, List.take_left]
  have hdrop : (before ++ (list ++ after)).drop (before.length + list.length) = after := by
    rw [← List.append_assoc, ← List.length_append, List.drop_left]
  unfold sortSubList
  rw [htake, List.drop_left, sortByTitle_of_titles h, hdrop, List.take_left]
  rfl

/-- **`sortGroup` sorts the part it is called for**, and touches nothing else. -/
theorem sortGroup_append {done part rest : List Setting} (h : ∀ s ∈ part, s.getTitle ≠ none) :
    sortGroup sortRoot (done ++ (part ++ rest)) done.length (done.length + part.length) =
      some (done ++ (sortPart sortRoot part ++ rest)) := by
  cases part with
  | nil => rw [sortGroup, if_pos (by simp), sortPart]
  | cons first items =>
    have hfirst : (done ++ (first :: items ++ rest))[done.length]? = some first := by
      rw [List.getElem?_append_right (Nat.le_refl _), Nat.sub_self]
      rfl
    rw [sortGroup, if_neg (by simp), hfirst, sortPart]
    dsimp only
    by_cases hheader : first.isHeader = true
    · rw [if_pos hheader, if_pos hheader]
      cases hsorted : first.isSorted with
      | false =>
        rw [if_neg fun hand => Bool.false_ne_true hand.1]
        rfl
      | true =>
        rw [sortItems, if_pos rfl]
        by_cases htwo : 2 < done.length + (first :: items).length - done.length
        · -- the header is part of what is in front of the items
          have hsub := sortSubList_append (done ++ [first]) rest
            fun s hs => h s (List.mem_cons_of_mem first hs)
          rw [List.append_assoc, List.append_assoc, List.length_append, Nat.add_assoc,
            Nat.add_comm [first].length items.length] at hsub
          rw [if_pos ⟨rfl, htwo⟩]
          exact hsub
        · -- at most one item is in order
          rw [if_neg fun hand => htwo hand.2]
          match items with
          | [] => rw [List.mergeSort_nil]
          | [s] => rw [List.mergeSort_singleton]
          | s :: t :: items =>
            simp only [List.length_cons] at htwo
            omega
    · rw [if_neg hheader, if_neg hheader]
      cases hroot : sortRoot with
      | true =>
        rw [if_pos rfl, sortItems, if_pos rfl]
        exact sortSubList_append done rest h
      | false =>
        rw [if_neg Bool.false_ne_true]
        rfl

/-- **The loop is `sortFrom`**: what is done is in front of the part the loop is at, and the rest
    is as it was. -/
theorem sortLoop_eq (done part rest : List Setting) (hpart : ∀ s ∈ part, s.getTitle ≠ none)
    (hrest : ∀ s ∈ rest, s.getTitle ≠ none) :
    sortLoop sortRoot (rest.length + 1) (done.length + part.length) done.length
        (done ++ (part ++ rest)) =
      some (done ++ sortFrom sortRoot part rest) := by
  induction rest generalizing done part with
  | nil =>
    have hend : done.length + part.length = (done ++ (part ++ [])).length := by simp
    rw [List.length_nil, sortLoop, if_pos (Or.inl hend), sortGroup_append hpart, sortFrom]
    dsimp only
    rw [sortLoop, List.append_nil]
  | cons s rest ih =>
    have hs : (done ++ (part ++ s :: rest))[done.length + part.length]? = some s := by
      rw [← List.append_assoc, ← List.length_append, List.getElem?_append_right (Nat.le_refl _),
        Nat.sub_self]
      rfl
    have hend : done.length + part.length ≠ (done ++ (part ++ s :: rest)).length := by
      simp
    have hrest' : ∀ t ∈ rest, t.getTitle ≠ none := fun t ht => hrest t (List.mem_cons_of_mem _ ht)
    have hlast : ∀ t ∈ [s], t.getTitle ≠ none := fun t ht =>
      hrest t (List.mem_cons.mpr (Or.inl (List.mem_singleton.mp ht)))
    rw [List.length_cons, sortLoop, hs, Option.any_some, sortFrom]
    by_cases hheader : s.isHeader = true
    · rw [if_pos (Or.inr hheader), if_pos hheader, sortGroup_append hpart]
      dsimp only
      have hnext := ih (done ++ sortPart sortRoot part) [s] hlast hrest'
      rw [List.append_assoc, List.length_append, (sortPart_perm part).length_eq,
        List.append_assoc] at hnext
      exact hnext
    · rw [if_neg (not_or.mpr ⟨hend, hheader⟩), if_neg hheader]
      have hnext := ih done (part ++ [s]) ?_ hrest'
      · rw [List.length_append, ← Nat.add_assoc, List.append_assoc] at hnext
        exact hnext
      · intro t ht
        rcases List.mem_append.mp ht with ht | ht
        · exact hpart t ht
        · exact hlast t ht

theorem sortSettings_eq {settings : List Setting} (h : ∀ s ∈ settings, s.getTitle ≠ none) :
    sortSettings sortRoot settings = some (sortFrom sortRoot [] settings) :=
  sortLoop_eq [] [] settings (by simp) h

/-! ## Sections -/

theorem sortFrom_header {s : Setting} (hs : s.isHeader = true) (part rest : List Setting) :
    sortFrom sortRoot part (s :: rest) = sortPart sortRoot part ++ sortFrom sortRoot [s] rest := by
  rw [sortFrom, if_pos hs]

/-- Where the next part begins with a header, the parts are sorted one after the other. -/
theorem sortFrom_append (part rest next : List Setting)
    (hnext : ∀ s ∈ next.head?, s.isHeader = true) :
    sortFrom sortRoot part (rest ++ next) =
      sortFrom sortRoot part rest ++ sortFrom sortRoot [] next := by
  induction rest generalizing part with
  | nil =>
    cases next with
    | nil => simp [sortFrom, sortPart]
    | cons s next =>
      have hs := hnext s rfl
      rw [List.nil_append, sortFrom_header hs, sortFrom_header hs]
      rfl
  | cons s rest ih =>
    rw [List.cons_append, sortFrom, sortFrom]
    split
    · rw [ih, List.append_assoc]
    · exact ih _

theorem sortFrom_free (part : List Setting) {rest : List Setting}
    (h : ∀ s ∈ rest, s.isHeader = false) :
    sortFrom sortRoot part rest = sortPart sortRoot (part ++ rest) := by
  induction rest generalizing part with
  | nil => rw [sortFrom, List.append_nil]
  | cons s rest ih =>
    have hs : ¬ s.isHeader = true := by simp [h s List.mem_cons_self]
    rw [sortFrom, if_neg hs, ih _ fun t ht => h t (List.mem_cons_of_mem _ ht), List.append_assoc]
    rfl

/-- A part without a header. -/
theorem sortPart_free {items : List Setting} (h : ∀ s ∈ items, s.isHeader = false) :
    sortPart sortRoot items = sortItems sortRoot items := by
  cases items with
  | nil =>
    cases sortRoot with
    | true => rw [sortPart, sortItems, if_pos rfl, List.mergeSort_nil]
    | false => rfl
  | cons s items =>
    have hs : ¬ s.isHeader = true := by simp [h s List.mem_cons_self]
    rw [sortPart, if_neg hs]

/-- The settings between two headers, or before the first one or after the last one. -/
structure IsSection (settings before items after : List Setting) : Prop where
  split : settings = before ++ (items ++ after)
  free : ∀ s ∈ items, s.isHeader = false
  begins : ∀ s ∈ before.getLast?, s.isHeader = true
  ends : ∀ s ∈ after.head?, s.isHeader = true

/-- Whether a section is to be sorted: the flag of its header, or `sortRoot` if it has none. -/
def sectionSorted (sortRoot : Bool) (before : List Setting) : Bool :=
  match before.getLast? with
  | none => sortRoot
  | some header => header.isSorted

theorem sectionSorted_concat (earlier : List Setting) (header : Setting) :
    sectionSorted sortRoot (earlier ++ [header]) = header.isSorted := by
  rw [sectionSorted, List.getLast?_concat]

/-- **A section and its place**: what was before it and behind it is there, and the section is
    sorted or as it was. -/
theorem sortFrom_section (sortRoot : Bool) {settings before items after : List Setting}
    (h : IsSection settings before items after) :
    ∃ before' after', before'.length = before.length ∧
      sortFrom sortRoot [] settings =
        before' ++ (sortItems (sectionSorted sortRoot before) items ++ after') ∧
      ∀ s ∈ before.getLast?, before'.getLast? = some s := by
  obtain ⟨rfl, hfree, hbegins, hends⟩ := h
  rcases List.eq_nil_or_concat before with rfl | ⟨earlier, header, rfl⟩
  · refine ⟨[], sortFrom sortRoot [] after, rfl, ?_, by simp⟩
    rw [List.nil_append, sortFrom_append _ _ _ hends, sortFrom_free _ hfree, List.nil_append,
      sortPart_free hfree]
    rfl
  · have hheader : header.isHeader = true := hbegins header (by simp)
    have hlen := (sortFrom_perm sortRoot [] earlier).length_eq
    refine ⟨sortFrom sortRoot [] earlier ++ [header], sortFrom sortRoot [] after, ?_, ?_, ?_⟩
    · rw [List.concat_eq_append, List.length_append, List.length_append, hlen]
      rfl
    · have hnext : ∀ s ∈ (header :: (items ++ after)).head?, s.isHeader = true := by
        intro s hs
        obtain rfl : header = s := by simpa using hs
        exact hheader
      rw [List.concat_eq_append, List.append_assoc, List.singleton_append,
        sortFrom_append _ _ _ hnext, sortFrom_header hheader, sortFrom_append _ _ _ hends,
        sortFrom_free _ hfree, List.singleton_append, sectionSorted_concat, sortPart, sortPart,
        if_pos hheader]
      simp
    · intro s hs
      simpa using hs

theorem exists_section {settings : List Setting} {i : Nat} {header : Setting}
    (h : settings[i]? = some header) (hheader : header.isHeader = true) :
    ∃ before items after, IsSection settings before items after ∧ before.length = i + 1 ∧
      before.getLast? = some header := by
  obtain ⟨hi, hget⟩ := List.getElem?_eq_some_iff.mp h
  have hsplit : settings = settings.take i ++ ([header] ++ settings.drop (i + 1)) := by
    rw [← hget, List.singleton_append, List.getElem_cons_drop, List.take_append_drop]
  refine ⟨settings.take i ++ [header], (settings.drop (i + 1)).takeWhile (fun s => !s.isHeader),
    (settings.drop (i + 1)).dropWhile (fun s => !s.isHeader), ⟨?_, ?_, ?_, ?_⟩, ?_, ?_⟩
  · rw [List.takeWhile_append_dropWhile, List.append_assoc]
    exact hsplit
  · intro s hs
    simpa using List.mem_takeWhile_imp hs
  · intro s hs
    obtain rfl : header = s := by simpa using hs
    exact hheader
  · intro s hs
    have hfirst := List.head?_dropWhile_not (fun s : Setting => !s.isHeader) (settings.drop (i + 1))
    rw [hs] at hfirst
    simpa using hfirst
  · rw [List.length_append, List.length_take, Nat.min_eq_left (Nat.le_of_lt hi)]
    rfl
  · exact List.getLast?_concat

/-- What `sortSettings` makes of a list. -/
structure SortedSections (sortRoot : Bool) (settings result : List Setting) : Prop where
  perm : result.Perm settings
  headers : ∀ (i : Nat) (header : Setting), settings[i]? = some header → header.isHeader = true →
    result[i]? = some header
  /-- A section is where it was, with the same settings, sorted or unchanged. -/
  sections : ∀ before items after, IsSection settings before items after →
    ∃ before' items' after', result = before' ++ (items' ++ after') ∧
      before'.length = before.length ∧ items'.Perm items ∧
      (sectionSorted sortRoot before = true → SortedBy titleKey items items') ∧
      (sectionSorted sortRoot before = false → items' = items)

/-- **Sections are sorted in place.** -/
theorem sortSettings_sections (sortRoot : Bool) (settings : List Setting)
    (h : ∀ s ∈ settings, s.getTitle ≠ none) :
    ∃ result, sortSettings sortRoot settings = some result ∧
      SortedSections sortRoot settings result := by
  refine ⟨_, sortSettings_eq h, ?_, ?_, ?_⟩
  · exact sortSettings_perm (sortSettings_eq h)
  · intro i header hi hheader
    obtain ⟨before, items, after, hsection, hlen, hlast⟩ := exists_section hi hheader
    obtain ⟨before', after', hlen', hresult, hlast'⟩ := sortFrom_section sortRoot hsection
    have hend := hlast' header hlast
    rw [List.getLast?_eq_getElem?, hlen', hlen, Nat.add_sub_cancel] at hend
    rw [hresult, List.getElem?_append_left (by omega)]
    exact hend
  · intro before items after hsection
    obtain ⟨before', after', hlen, hresult, -⟩ := sortFrom_section sortRoot hsection
    refine ⟨before', _, after', hresult, hlen, sortItems_perm _ items, ?_, ?_⟩
    · intro hsorted
      rw [hsorted]
      exact SortedBy.mergeSort titleKey items
    · intro hsorted
      rw [hsorted]
      rfl

/-- Two settings before a header that asks for sorting, and two after it. -/
def mixedSettings : List Setting :=
  [.item ['a'] (some ['B']), .item ['b'] (some ['A']), .header ['h'] (some ['H']) true,
    .item ['c'] (some ['D']), .item ['d'] (some ['C'])]

theorem sortSettings_sections_mixed :
    (∀ s ∈ mixedSettings, s.getTitle ≠ none) ∧
      ∃ result, sortSettings false mixedSettings = some result ∧
        SortedSections false mixedSettings result := by
  have htitles : ∀ s ∈ mixedSettings, s.getTitle ≠ none := by
    simp [mixedSettings, Setting.getTitle]
  exact ⟨htitles, sortSettings_sections false mixedSettings htitles⟩

end

end Sshd4a
