import Mathlib.Data.List.Basic
import Mathlib.Data.List.Induction
import Mathlib.Data.List.Nodup
import Sshd4a.Lib.Split

/-!
# An insertion-ordered map

`java.util.LinkedHashMap`, as far as its order is observable: iteration follows the order in
which keys were first inserted, `put` on a present key replaces the value **in place**, and
`remove` keeps the order of the rest. Mathlib's `AList` moves a re-inserted key to the front,
which is a different order, so the type is built here: a list of entries together with the
proof that no key occurs twice.

`ofList` is the map a loop of `put`s builds. The two facts about it that readers of a file
need are `get?_ofList_eq_some` (the last value put under a key wins) and `ofList_entries`
(replaying a map's own entries gives the map back, order included).
-/

/-- Entries in insertion order, one per key. -/
@[ext] structure LinkedMap (κ ν : Type*) where
  entries : List (κ × ν)
  nodup : (entries.map Prod.fst).Nodup

namespace LinkedMap

variable {κ ν : Type*}

/-- The map without entries. -/
def empty : LinkedMap κ ν := ⟨[], by simp⟩

def isEmpty (m : LinkedMap κ ν) : Bool := m.entries.isEmpty

@[simp] theorem entries_empty : (empty : LinkedMap κ ν).entries = [] := rfl

theorem isEmpty_iff {m : LinkedMap κ ν} : m.isEmpty = true ↔ m = empty := by
  rw [isEmpty, List.isEmpty_iff]
  refine ⟨fun h => LinkedMap.ext h, fun h => by rw [h]; rfl⟩

variable [DecidableEq κ]

/-- Replace the value of a key where it stands, or append the entry. -/
def putEntry (k : κ) (v : ν) : List (κ × ν) → List (κ × ν)
  | [] => [(k, v)]
  | e :: es => if e.1 = k then (k, v) :: es else e :: putEntry k v es

theorem mem_map_fst_putEntry {k x : κ} {v : ν} {es : List (κ × ν)} :
    x ∈ (putEntry k v es).map Prod.fst ↔ x = k ∨ x ∈ es.map Prod.fst := by
  induction es with
  | nil => simp [putEntry]
  | cons e es ih =>
    by_cases he : e.1 = k
    · simp [putEntry, he]
    · rw [putEntry, if_neg he, List.map_cons, List.mem_cons, ih, List.map_cons, List.mem_cons]
      exact or_left_comm

theorem nodup_putEntry {k : κ} {v : ν} {es : List (κ × ν)}
    (h : (es.map Prod.fst).Nodup) : ((putEntry k v es).map Prod.fst).Nodup := by
  induction es with
  | nil => simp [putEntry]
  | cons e es ih =>
    rw [List.map_cons, List.nodup_cons] at h
    by_cases he : e.1 = k
    · rw [putEntry, if_pos he, List.map_cons, List.nodup_cons]
      exact ⟨he ▸ h.1, h.2⟩
    · rw [putEntry, if_neg he, List.map_cons, List.nodup_cons, mem_map_fst_putEntry]
      exact ⟨fun hm => hm.elim he h.1, ih h.2⟩

/-- `put(k, v)`. -/
def put (m : LinkedMap κ ν) (k : κ) (v : ν) : LinkedMap κ ν :=
  ⟨putEntry k v m.entries, nodup_putEntry m.nodup⟩

/-- `remove(k)`. -/
def remove (m : LinkedMap κ ν) (k : κ) : LinkedMap κ ν :=
  ⟨m.entries.filter (fun e => e.1 ≠ k), m.nodup.sublist (List.filter_sublist.map _)⟩

/-- `get(k)`; `none` is `null`. -/
def get? (m : LinkedMap κ ν) (k : κ) : Option ν :=
  (m.entries.find? (fun e => e.1 = k)).map Prod.snd

/-- `containsKey(k)`. -/
def containsKey (m : LinkedMap κ ν) (k : κ) : Bool := (m.get? k).isSome

/-- The map a loop of `put`s over the given entries builds. -/
def ofList (l : List (κ × ν)) : LinkedMap κ ν :=
  l.foldl (fun m e => m.put e.1 e.2) empty

/-! ## Reading -/

theorem get?_eq_some {m : LinkedMap κ ν} {k : κ} {v : ν} :
    m.get? k = some v ↔ (k, v) ∈ m.entries := by
  obtain ⟨es, hes⟩ := m
  induction es with
  | nil => simp [get?]
  | cons e es ih =>
    rw [List.map_cons, List.nodup_cons] at hes
    have ih' := ih hes.2
    simp only [get?] at ih' ⊢
    by_cases he : e.1 = k
    · obtain ⟨k', v'⟩ := e
      subst he
      have : ∀ w, (k', w) ∉ es := fun w hw => hes.1 (List.mem_map.mpr ⟨_, hw, rfl⟩)
      simp [this, eq_comm]
    · rw [List.find?_cons_of_neg (by simpa using he), ih', List.mem_cons]
      refine ⟨Or.inr, fun h => h.resolve_left fun hq => he (by rw [← hq])⟩

theorem get?_eq_none {m : LinkedMap κ ν} {k : κ} :
    m.get? k = none ↔ k ∉ m.entries.map Prod.fst := by
  rw [get?, Option.map_eq_none_iff, List.find?_eq_none, List.mem_map]
  constructor
  · rintro h ⟨e, he, rfl⟩
    exact h e he (by simp)
  · intro h e he hk
    exact h ⟨e, he, by simpa using hk⟩

@[simp] theorem get?_empty (k : κ) : (empty : LinkedMap κ ν).get? k = none := rfl

theorem get?_put (m : LinkedMap κ ν) (k k' : κ) (v : ν) :
    (m.put k v).get? k' = if k' = k then some v else m.get? k' := by
  obtain ⟨es, hes⟩ := m
  simp only [get?, put]
  induction es with
  | nil => by_cases h : k' = k <;> simp [putEntry, h, eq_comm]
  | cons e es ih =>
    rw [List.map_cons, List.nodup_cons] at hes
    by_cases he : e.1 = k
    · by_cases h : k' = k
      · simp [putEntry, he, h]
      · have h' : ¬ k = k' := fun hq => h hq.symm
        have he' : ¬ e.1 = k' := he ▸ h'
        rw [putEntry, if_pos he, List.find?_cons_of_neg (by simpa using h'),
          List.find?_cons_of_neg (by simpa using he'), if_neg h]
    · rw [putEntry, if_neg he]
      by_cases hk : e.1 = k'
      · have h : ¬ k' = k := hk ▸ he
        simp [hk, h]
      · rw [List.find?_cons_of_neg (by simpa using hk),
          List.find?_cons_of_neg (by simpa using hk), ih hes.2]

/-- Where an entry ends up: after the entries before its key, with old entries behind it. -/
theorem entries_put (m : LinkedMap κ ν) (k : κ) (v : ν) :
    ∃ after, (m.put k v).entries = m.entries.takeWhile (fun e => e.1 ≠ k) ++ (k, v) :: after ∧
      ∀ e ∈ after, e ∈ m.entries := by
  have hlist : ∀ es : List (κ × ν), ∃ after,
      putEntry k v es = es.takeWhile (fun e => e.1 ≠ k) ++ (k, v) :: after ∧
        ∀ e ∈ after, e ∈ es := by
    intro es
    induction es with
    | nil => exact ⟨[], rfl, by simp⟩
    | cons e es ih =>
      by_cases he : e.1 = k
      · exact ⟨es, by simp [putEntry, he], fun x hx => List.mem_cons_of_mem _ hx⟩
      · obtain ⟨after, heq, hmem⟩ := ih
        exact ⟨after, by simp [putEntry, he, heq], fun x hx => List.mem_cons_of_mem _ (hmem x hx)⟩
  exact hlist m.entries

/-- Putting back the value a key already has changes nothing, not even the order. -/
theorem put_of_get? {m : LinkedMap κ ν} {k : κ} {v : ν} (h : m.get? k = some v) :
    m.put k v = m := by
  obtain ⟨es, hes⟩ := m
  refine LinkedMap.ext ?_
  rw [get?_eq_some] at h
  simp only [put]
  induction es with
  | nil => simp at h
  | cons e es ih =>
    rw [List.map_cons, List.nodup_cons] at hes
    by_cases he : e.1 = k
    · rcases List.mem_cons.mp h with rfl | hm
      · simp [putEntry]
      · exact absurd (List.mem_map_of_mem (f := Prod.fst) hm) (he ▸ hes.1)
    · rw [putEntry, if_neg he]
      refine congrArg (e :: ·) (ih hes.2 ?_)
      exact (List.mem_cons.mp h).resolve_left fun hq => he (by rw [← hq])

theorem remove_of_get? {m : LinkedMap κ ν} {k : κ} (h : m.get? k = none) : m.remove k = m := by
  refine LinkedMap.ext ?_
  rw [get?_eq_none] at h
  simp only [remove]
  refine List.filter_eq_self.mpr fun e he => ?_
  have : e.1 ≠ k := fun hq => h (hq ▸ List.mem_map_of_mem he)
  simpa using this

theorem get?_remove (m : LinkedMap κ ν) (k : κ) : (m.remove k).get? k = none := by
  rw [get?_eq_none]
  intro hmem
  obtain ⟨e, he, hk⟩ := List.mem_map.mp hmem
  exact absurd hk (by simpa using List.of_mem_filter he)

/-- A `put` leaves the entries of the other keys, and their order, alone. -/
theorem filter_put (m : LinkedMap κ ν) (k : κ) (v : ν) :
    (m.put k v).entries.filter (fun e => e.1 ≠ k) = m.entries.filter (fun e => e.1 ≠ k) := by
  obtain ⟨es, hes⟩ := m
  show (putEntry k v es).filter _ = es.filter _
  clear hes
  induction es with
  | nil => simp [putEntry]
  | cons e es ih =>
    by_cases he : e.1 = k
    · simp [putEntry, he]
    · rw [putEntry, if_neg he, List.filter_cons, List.filter_cons, ih]

theorem filter_remove (m : LinkedMap κ ν) (k : κ) :
    (m.remove k).entries.filter (fun e => e.1 ≠ k) = m.entries.filter (fun e => e.1 ≠ k) := by
  simp [remove, List.filter_filter]

/-! ## Maps built by a loop -/

theorem get?_foldl_put (m : LinkedMap κ ν) (l : List (κ × ν)) (k : κ) :
    (l.foldl (fun m e => m.put e.1 e.2) m).get? k
      = ((l.reverse.find? (fun e => e.1 = k)).map Prod.snd).or (m.get? k) := by
  induction l generalizing m with
  | nil => simp
  | cons e l ih =>
    rw [List.foldl_cons, ih, get?_put, List.reverse_cons, List.find?_append]
    by_cases he : k = e.1
    · cases l.reverse.find? (fun e => e.1 = k) <;> simp [he]
    · have he' : ¬ e.1 = k := fun hq => he hq.symm
      cases l.reverse.find? (fun e => e.1 = k) <;> simp [he, he']

/-- **The last value put under a key wins.** -/
theorem get?_ofList_eq_some {l : List (κ × ν)} {k : κ} {v : ν} :
    (ofList l).get? k = some v ↔
      ∃ before after, l = before ++ (k, v) :: after ∧ ∀ e ∈ after, e.1 ≠ k := by
  rw [ofList, get?_foldl_put, get?_empty, Option.or_none, Option.map_eq_some_iff]
  constructor
  · rintro ⟨⟨k', v'⟩, hf, rfl⟩
    obtain ⟨hk, as, bs, heq, has⟩ := List.find?_eq_some_iff_append.mp hf
    simp only [decide_eq_true_eq] at hk
    subst hk
    refine ⟨bs.reverse, as.reverse, ?_, fun e he => ?_⟩
    · simpa using congrArg List.reverse heq
    · simpa using has e (List.mem_reverse.mp he)
  · rintro ⟨before, after, rfl, hafter⟩
    refine ⟨(k, v), List.find?_eq_some_iff_append.mpr
      ⟨by simp, after.reverse, before.reverse, by simp, fun e he => ?_⟩, rfl⟩
    simpa using hafter e (List.mem_reverse.mp he)

theorem putEntry_of_notMem {k : κ} {v : ν} {es : List (κ × ν)}
    (h : k ∉ es.map Prod.fst) : putEntry k v es = es ++ [(k, v)] := by
  induction es with
  | nil => rfl
  | cons e es ih =>
    rw [List.map_cons, List.mem_cons, not_or] at h
    rw [putEntry, if_neg fun hq => h.1 hq.symm, ih h.2, List.cons_append]

theorem entries_foldl_put {l : List (κ × ν)} (m : LinkedMap κ ν)
    (h : ((m.entries ++ l).map Prod.fst).Nodup) :
    (l.foldl (fun m e => m.put e.1 e.2) m).entries = m.entries ++ l := by
  induction l generalizing m with
  | nil => simp
  | cons e l ih =>
    have hsplit : ((m.entries ++ [e] ++ l).map Prod.fst).Nodup := by simpa using h
    have hfresh : e.1 ∉ m.entries.map Prod.fst := by
      have hnd : ((m.entries ++ [e]).map Prod.fst).Nodup :=
        hsplit.sublist (List.sublist_append_left _ _ |>.map _)
      rw [List.map_append, List.nodup_append] at hnd
      exact fun hm => hnd.2.2 _ hm e.1 (by simp) rfl
    have hput : (m.put e.1 e.2).entries = m.entries ++ [e] := putEntry_of_notMem hfresh
    rw [List.foldl_cons, ih _ (by rw [hput]; exact hsplit), hput, List.append_assoc]
    rfl

theorem ofList_entries (m : LinkedMap κ ν) : ofList m.entries = m :=
  LinkedMap.ext (by
    have := entries_foldl_put empty (l := m.entries) (by simpa using m.nodup)
    rw [ofList, this, entries_empty, List.nil_append])

theorem mem_entries_ofList {l : List (κ × ν)} {e : κ × ν} (h : e ∈ (ofList l).entries) :
    e ∈ l := by
  obtain ⟨k, v⟩ := e
  obtain ⟨before, after, rfl, -⟩ := get?_ofList_eq_some.mp (get?_eq_some.mpr h)
  simp

/-! ## Order -/

theorem before_eq_takeWhile {m : LinkedMap κ ν} {before after : List (κ × ν)} {e : κ × ν}
    (h : m.entries = before ++ e :: after) :
    before = m.entries.takeWhile (fun x => x.1 ≠ e.1) := by
  have hnd := m.nodup
  rw [h, List.map_append, List.nodup_append] at hnd
  have hne : ∀ x ∈ before, x.1 ≠ e.1 := fun x hx =>
    hnd.2.2 x.1 (List.mem_map_of_mem hx) e.1 (by simp)
  rw [h, List.takeWhile_append_of_pos (by simpa using hne), List.takeWhile_cons_of_neg (by simp),
    List.append_nil]

theorem mem_takeWhile {m : LinkedMap κ ν} {k : κ} {e : κ × ν} :
    e ∈ m.entries.takeWhile (fun x => x.1 ≠ k) ↔
      e ∈ m.entries ∧ e.1 ∈ (m.entries.map Prod.fst).takeWhile (fun x => x ≠ k) := by
  rw [List.takeWhile_map, List.mem_map]
  constructor
  · intro h
    exact ⟨(List.takeWhile_prefix _).subset h, e, h, rfl⟩
  · rintro ⟨he, x, hx, hkey⟩
    have hx' : (e.1, x.2) ∈ m.entries := hkey ▸ (List.takeWhile_prefix _).subset hx
    have hval : x.2 = e.2 := Option.some.inj
      ((get?_eq_some.mpr hx').symm.trans (get?_eq_some.mpr he))
    rwa [Prod.ext hkey hval] at hx

theorem keys_putEntry (k : κ) (v : ν) (es : List (κ × ν)) :
    (putEntry k v es).map Prod.fst
      = if k ∈ es.map Prod.fst then es.map Prod.fst else es.map Prod.fst ++ [k] := by
  induction es with
  | nil => rfl
  | cons e es ih =>
    by_cases he : e.1 = k
    · simp [putEntry, he]
    · have he' : ¬ k = e.1 := fun hq => he hq.symm
      rw [putEntry, if_neg he, List.map_cons, ih, List.map_cons]
      by_cases hm : k ∈ es.map Prod.fst
      · rw [if_pos hm, if_pos (List.mem_cons_of_mem e.1 hm)]
      · rw [if_neg hm, if_neg (List.not_mem_cons_of_ne_of_not_mem he' hm), List.cons_append]

/-- The keys after a `put`: a new key comes last. -/
theorem keys_put (m : LinkedMap κ ν) (k : κ) (v : ν) :
    (m.put k v).entries.map Prod.fst
      = if (m.get? k).isSome then m.entries.map Prod.fst else m.entries.map Prod.fst ++ [k] := by
  rw [put, keys_putEntry]
  by_cases h : k ∈ m.entries.map Prod.fst
  · rw [if_pos h, if_pos (by rw [← Option.ne_none_iff_isSome, ne_eq, get?_eq_none]; exact not_not.mpr h)]
  · rw [if_neg h, if_neg (by rw [get?_eq_none.mpr h]; simp)]

theorem ofList_concat (l : List (κ × ν)) (e : κ × ν) :
    ofList (l ++ [e]) = (ofList l).put e.1 e.2 := by
  rw [ofList, List.foldl_append]
  rfl

theorem mem_keys_ofList {l : List (κ × ν)} {k : κ} :
    k ∈ (ofList l).entries.map Prod.fst ↔ k ∈ l.map Prod.fst := by
  induction l using List.reverseRecOn with
  | nil => rfl
  | append_singleton l e ih =>
    rw [ofList_concat, put, mem_map_fst_putEntry, ih, List.map_append, List.mem_append, or_comm]
    simp

/-- **A loop of `put`s orders the keys by their first occurrence.** -/
theorem mem_takeWhile_keys_ofList {l : List (κ × ν)} {k x : κ} :
    x ∈ ((ofList l).entries.map Prod.fst).takeWhile (fun y => y ≠ k) ↔
      x ∈ (l.map Prod.fst).takeWhile (fun y => y ≠ k) := by
  have hstop : ∀ as bs : List κ, k ∈ as →
      (as ++ bs).takeWhile (fun y => y ≠ k) = as.takeWhile (fun y => y ≠ k) := by
    intro as bs hk
    induction as with
    | nil => simp at hk
    | cons a as ih =>
      by_cases ha : a = k
      · simp [ha]
      · have hk' : k ∈ as := (List.mem_cons.mp hk).resolve_left fun hq => ha hq.symm
        simpa [ha] using ih hk'
  have hpass : ∀ as bs : List κ, k ∉ as →
      (as ++ bs).takeWhile (fun y => y ≠ k) = as ++ bs.takeWhile (fun y => y ≠ k) := by
    intro as bs hk
    refine List.takeWhile_append_of_pos fun a ha => ?_
    have hne : a ≠ k := fun hq => hk (hq ▸ ha)
    simpa using hne
  induction l using List.reverseRecOn with
  | nil => rfl
  | append_singleton l e ih =>
    rw [ofList_concat, put, keys_putEntry, List.map_append]
    by_cases hk : k ∈ l.map Prod.fst
    · -- The key has its place already.
      rw [hstop _ _ hk]
      split
      · exact ih
      · rw [hstop _ _ (mem_keys_ofList.mpr hk)]
        exact ih
    · have hk' : k ∉ (ofList l).entries.map Prod.fst := fun hm => hk (mem_keys_ofList.mp hm)
      rw [hpass _ _ hk, List.mem_append]
      split
      · next he =>
        have hall := hpass _ [] hk'
        rw [List.append_nil, List.takeWhile_nil, List.append_nil] at hall
        rw [hall, mem_keys_ofList]
        refine ⟨Or.inl, fun h => h.elim id fun hx => ?_⟩
        have hx' : x = e.1 := by simpa using (List.takeWhile_prefix _).subset hx
        rw [hx', ← mem_keys_ofList]
        exact he
      · rw [hpass _ _ hk', List.mem_append, mem_keys_ofList]
        rfl

/-- The first entry with a given key among what the entries of a map stand for. -/
theorem find?_filterMap_entries {β γ : Type*} [DecidableEq β] {m : LinkedMap κ ν}
    {f : κ × ν → Option (β × γ)} {b : β} {c : γ} :
    ((m.entries.filterMap f).find? (fun x => x.1 = b)).map Prod.snd = some c ↔
      ∃ e ∈ m.entries, f e = some (b, c) ∧
        ∀ x ∈ m.entries.takeWhile (fun x => x.1 ≠ e.1), ∀ c', f x ≠ some (b, c') := by
  rw [Text.find?_filterMap_eq_some]
  constructor
  · rintro ⟨before, e, after, hsplit, he, hbefore⟩
    rw [before_eq_takeWhile hsplit] at hbefore
    exact ⟨e, by simp [hsplit], he, hbefore⟩
  · rintro ⟨e, hmem, he, hbefore⟩
    obtain ⟨before, after, hsplit⟩ := List.append_of_mem hmem
    rw [← before_eq_takeWhile hsplit] at hbefore
    exact ⟨before, e, after, hsplit, he, hbefore⟩

end LinkedMap
