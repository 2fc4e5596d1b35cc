import Mathlib.Logic.Function.Basic
import Sshd4a.Lib.Split

/-!
# A tree of files and directories

A place is named from the inside out, so that the directory it is in is its tail. A tree says what
is at each place; there are no links. `resolve` follows a path the way a kernel does: every
component but the last has to be a directory, an empty one and `.` stay, and `..` goes up, which
from the root leads to the root.

The commands are `write`, `removeFile` (`rm -f`) and `move` (`mv`, which goes *into* a directory
that it finds at its destination, and does nothing if that would be a directory or the file
itself). None of them makes or removes a directory, so a path leads to the same place before and
after (`resolve_congr`), and what is behind a `move` is one of three things (`move_cases`).
-/

namespace FileTree

open Text

abbrev Name := List Char

/-- The innermost name first. -/
abbrev Place := List Name

inductive Node (β : Type*)
  | dir
  | file (content : β)
deriving DecidableEq, Repr

abbrev Volume (β : Type*) := Place → Option (Node β)

variable {β : Type*} {t t' : Volume β} {p q d : Place}

def isDir (t : Volume β) (p : Place) : Bool :=
  match t p with
  | some .dir => true
  | _ => false

/-- What is in the file at a place. -/
def contentAt (t : Volume β) (p : Place) : Option β :=
  match t p with
  | some (.file content) => some content
  | _ => none

/-! ## Paths -/

def walk (t : Volume β) : Place → List Name → Option Place
  | d, [] => some d
  | d, c :: cs =>
    if isDir t d then
      if c = [] ∨ c = ['.'] then walk t d cs
      else if c = ['.', '.'] then
        if isDir t d.tail then walk t d.tail cs else none
      else walk t (c :: d) cs
    else none

def components (path : List Char) : List Name := path.splitOnP (· == '/')

/-- Where a path leads to; there may be nothing at its last component. -/
def resolve (t : Volume β) (path : List Char) : Option Place := walk t [] (components path)

theorem walk_congr (h : ∀ p, isDir t' p = isDir t p) (d : Place) (cs : List Name) :
    walk t' d cs = walk t d cs := by
  induction cs generalizing d with
  | nil => rfl
  | cons c cs ih => simp only [walk, h, ih]

/-- Where the directories are the same, a path leads to the same place. -/
theorem resolve_congr (h : ∀ p, isDir t' p = isDir t p) (path : List Char) :
    resolve t' path = resolve t path :=
  walk_congr h [] (components path)

/-- A path leads to a directory, or to something of the name of its last component. -/
theorem walk_concat {cs : List Name} {c : Name} (h : walk t d (cs ++ [c]) = some p) :
    isDir t p = true ∨ p.head? = some c := by
  induction cs generalizing d with
  | nil =>
    simp only [List.nil_append, walk] at h
    by_cases hd : isDir t d = true
    · rw [if_pos hd] at h
      split at h
      · cases h
        exact Or.inl hd
      · split at h
        · split at h
          · cases h
            exact Or.inl (by assumption)
          · cases h
        · cases h
          exact Or.inr rfl
    · rw [if_neg hd] at h
      cases h
  | cons e cs ih =>
    rw [List.cons_append, walk] at h
    split at h
    · split at h
      · exact ih h
      · split at h
        · split at h
          · exact ih h
          · cases h
        · exact ih h
    · cases h

theorem walk_append (t : Volume β) (d : Place) (cs es : List Name) :
    walk t d (cs ++ es) = (walk t d cs).bind fun e => walk t e es := by
  induction cs generalizing d with
  | nil => rfl
  | cons c cs ih =>
    rw [List.cons_append, walk, walk, ih, ih, ih]
    split
    · split
      · rfl
      · split
        · split
          · rfl
          · rfl
        · rfl
    · rfl

/-- Names lead inwards. -/
theorem walk_names {cs : List Name} (hcs : ∀ c ∈ cs, c ≠ [] ∧ c ≠ ['.'] ∧ c ≠ ['.', '.'])
    (h : walk t d cs = some p) : p = cs.reverse ++ d := by
  induction cs generalizing d with
  | nil => exact (Option.some.inj h).symm
  | cons c cs ih =>
    obtain ⟨hempty, hdot, hdots⟩ := hcs c List.mem_cons_self
    rw [walk, if_neg (not_or.mpr ⟨hempty, hdot⟩), if_neg hdots] at h
    split at h
    · rw [ih (fun c hc => hcs c (List.mem_cons_of_mem _ hc)) h, List.reverse_cons, List.append_assoc]
      rfl
    · cases h

theorem components_append_slash (a b : List Char) :
    components (a ++ '/' :: b) = components a ++ components b :=
  List.splitOnP_append_cons a b rfl

theorem resolve_append_slash (t : Volume β) (a b : List Char) :
    resolve t (a ++ '/' :: b) = (resolve t a).bind fun e => walk t e (components b) := by
  rw [resolve, components_append_slash, walk_append]
  rfl

/-- A name that a directory can have an entry for. -/
structure IsEntry (name : Name) : Prop where
  nonempty : name ≠ []
  dot : name ≠ ['.']
  dots : name ≠ ['.', '.']
  slash : '/' ∉ name

theorem IsEntry.walk {name : Name} (h : IsEntry name) (t : Volume β) (d : Place) :
    walk t d (components name) = if isDir t d then some (name :: d) else none := by
  have hfree : ∀ y ∈ name, (y == '/') = false := by
    intro y hy
    rw [beq_eq_false_iff_ne]
    exact fun heq => h.slash (heq ▸ hy)
  rw [components, List.splitOnP_eq_singleton hfree, FileTree.walk,
    if_neg (not_or.mpr ⟨h.nonempty, h.dot⟩), if_neg h.dots]
  rfl

/-- What is appended belongs to the last component. -/
theorem components_append {ext : List Char} (hext : '/' ∉ ext) (path : List Char) :
    ∃ cs c, components path = cs ++ [c] ∧ components (path ++ ext) = cs ++ [c ++ ext] := by
  have hfree : ∀ y ∈ ext, (y == '/') = false := by
    intro y hy
    rw [beq_eq_false_iff_ne]
    exact fun heq => hext (heq ▸ hy)
  induction path using splitInduction (· == '/') with
  | last l hl =>
    refine ⟨[], l, List.splitOnP_eq_singleton hl, List.splitOnP_eq_singleton ?_⟩
    intro y hy
    rcases List.mem_append.mp hy with hy | hy
    · exact hl y hy
    · exact hfree y hy
  | step a x rest ha hx ih =>
    rw [beq_iff_eq] at hx
    subst hx
    obtain ⟨cs, c, hrest, happ⟩ := ih
    refine ⟨components a ++ cs, c, ?_, ?_⟩
    · rw [components_append_slash, hrest, List.append_assoc]
    · rw [List.append_assoc, List.cons_append, components_append_slash, happ, List.append_assoc]

/-- A character in front of a path belongs to the first component, which may be the last one. -/
theorem components_cons {x : Char} (hx : x ≠ '/') {path : List Char} {cs : List Name} {c : Name}
    (h : components path = cs ++ [c]) :
    ∃ cs' c', components (x :: path) = cs' ++ [c'] ∧ (c' = c ∨ c' = x :: c) := by
  have hcons : components (x :: path) = (components path).modifyHead (List.cons x) := by
    rw [components, List.splitOnP_cons_eq_if_modifyHead, if_neg (by simpa using hx)]
    rfl
  rw [hcons, h]
  cases cs with
  | nil => exact ⟨[], x :: c, rfl, Or.inr rfl⟩
  | cons b bs => exact ⟨(x :: b) :: bs, c, rfl, Or.inl rfl⟩

/-- A path that goes on below a directory leads to a directory, or to something of the name of its
    last component. -/
theorem resolve_last {dir rest : List Char} {cs : List Name} {c : Name}
    (hc : components rest = cs ++ [c]) (h : resolve t (dir ++ '/' :: rest) = some p) :
    isDir t p = true ∨ p.head? = some c := by
  rw [resolve, components_append_slash, hc, ← List.append_assoc] at h
  exact walk_concat h

/-! ## Commands -/

def write (t : Volume β) (p : Place) (content : β) : Volume β :=
  Function.update t p (some (.file content))

/-- `rm -f`. -/
def removeFile (t : Volume β) : Option Place → Volume β
  | none => t
  | some p => if isDir t p then t else Function.update t p none

/-- Where `mv` puts a file. -/
def moveDest (t : Volume β) (source dest : Place) : Place :=
  if isDir t dest then source.headD [] :: dest else dest

/-- `mv` of the file at `source`. -/
def move (t : Volume β) (source : Place) : Option Place → Volume β
  | none => t
  | some dest =>
    let dest := moveDest t source dest
    if dest = source ∨ isDir t dest = true then t
    else Function.update (Function.update t dest (t source)) source none

theorem isDir_update {x : Option (Node β)} (hp : isDir t p = false) (hx : x ≠ some .dir)
    (q : Place) : isDir (Function.update t p x) q = isDir t q := by
  by_cases hq : q = p
  · subst hq
    rw [hp, isDir, Function.update_self]
    split
    · exact absurd rfl hx
    · rfl
  · rw [isDir, Function.update_of_ne hq]
    rfl

theorem isDir_write (hp : isDir t p = false) (content : β) (q : Place) :
    isDir (write t p content) q = isDir t q := by
  refine isDir_update hp ?_ q
  intro h
  cases h

theorem removeFile_of_not_isDir (hp : isDir t p = false) :
    removeFile t (some p) = Function.update t p none := by
  rw [removeFile, hp, if_neg Bool.false_ne_true]

theorem removeFile_of_isDir (hp : isDir t p = true) : removeFile t (some p) = t := by
  rw [removeFile, if_pos hp]

/-- All that a `move` can do. -/
theorem move_cases (t : Volume β) (source : Place) (dest : Option Place) :
    move t source dest = t ∨
      (∃ p, dest = some p ∧ isDir t p = true ∧ source.headD [] :: p ≠ source ∧
        move t source dest =
          Function.update (Function.update t (source.headD [] :: p) (t source)) source none) ∨
      (∃ p, dest = some p ∧ isDir t p = false ∧ p ≠ source ∧
        move t source dest = Function.update (Function.update t p (t source)) source none) := by
  cases dest with
  | none => exact Or.inl rfl
  | some p =>
    cases hdir : isDir t p with
    | true =>
      simp only [move, moveDest, hdir, if_true]
      split
      · exact Or.inl rfl
      · rename_i hfree
        exact Or.inr (Or.inl ⟨p, rfl, hdir, fun h => hfree (Or.inl h), rfl⟩)
    | false =>
      simp only [move, moveDest, hdir, Bool.false_eq_true, if_false, or_false]
      split
      · exact Or.inl rfl
      · rename_i hne
        exact Or.inr (Or.inr ⟨p, rfl, hdir, hne, rfl⟩)

/-- To a place where there is no directory, a file is moved. -/
theorem move_of_not_isDir (hp : isDir t p = false) (hne : p ≠ q) :
    move t q (some p) = Function.update (Function.update t p (t q)) q none := by
  simp only [move, moveDest, hp, Bool.false_eq_true, if_false, or_false, if_neg hne]

end FileTree
