import Mathlib.Data.List.Basic
import Mathlib.Logic.Function.Basic

/-!
# Objects by reference

A program that changes a collection in place depends on who else has a reference to it. An
`ObjectStore` has the contents of the objects of one kind under their references. `write`
changes one object, seen by everyone who has its reference, and `new` makes one that nobody has
seen before.
-/

/-- A reference to an object. -/
abbrev Ref := Nat

/-- The objects there are, and the first reference that was not given out. -/
structure ObjectStore (α : Type*) where
  content : Ref → α
  next : Ref

namespace ObjectStore

variable {α : Type*}

/-- No objects; what is there before an object is made is never read. -/
def empty [Inhabited α] : ObjectStore α := ⟨fun _ => default, 0⟩

def write (store : ObjectStore α) (r : Ref) (a : α) : ObjectStore α :=
  { store with content := Function.update store.content r a }

def new (store : ObjectStore α) (a : α) : ObjectStore α × Ref :=
  ({ content := Function.update store.content store.next a, next := store.next + 1 }, store.next)

/-- One new object for each entry of a list. -/
def newAll (store : ObjectStore α) : List α → ObjectStore α × List Ref
  | [] => (store, [])
  | a :: as =>
    let made := store.new a
    let rest := made.1.newAll as
    (rest.1, made.2 :: rest.2)

@[simp] theorem content_write_self (store : ObjectStore α) (r : Ref) (a : α) :
    (store.write r a).content r = a := Function.update_self ..

theorem content_write_of_ne (store : ObjectStore α) {r q : Ref} (h : q ≠ r) (a : α) :
    (store.write r a).content q = store.content q := Function.update_of_ne h ..

@[simp] theorem content_new_self (store : ObjectStore α) (a : α) :
    (store.new a).1.content (store.new a).2 = a := Function.update_self ..

theorem content_new_of_lt (store : ObjectStore α) {r : Ref} (h : r < store.next) (a : α) :
    (store.new a).1.content r = store.content r := Function.update_of_ne (Nat.ne_of_lt h) ..

theorem length_newAll (store : ObjectStore α) (as : List α) :
    (store.newAll as).2.length = as.length := by
  induction as generalizing store with
  | nil => rfl
  | cons a as ih => simp only [newAll, List.length_cons, ih]

end ObjectStore
