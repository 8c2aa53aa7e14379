import Mathlib

/-!
# Values in memory

Values at places that are given out one after another.

* `Keeps`: what had a place is as it was.
* `Keeps.alloc`, `Keeps.write`: new places, and writing to them, keep what was there.
-/

namespace Lib

universe u

structure Heap (α : Type u) where
  cells : Nat → α
  /-- The first place that is not given out. -/
  next : Nat

namespace Heap

variable {α : Type u} {h h' h'' : Heap α} {a : Nat}

def write (h : Heap α) (a : Nat) (x : α) : Heap α := { h with cells := Function.update h.cells a x }

def alloc (h : Heap α) (x : α) : Heap α × Nat :=
  (⟨Function.update h.cells h.next x, h.next + 1⟩, h.next)

@[simp] theorem write_next (h : Heap α) (a : Nat) (x : α) : (h.write a x).next = h.next := rfl

@[simp] theorem write_cells_self (h : Heap α) (a : Nat) (x : α) : (h.write a x).cells a = x :=
  Function.update_self ..

theorem write_cells_of_ne {b : Nat} (hb : b ≠ a) (x : α) : (h.write a x).cells b = h.cells b :=
  Function.update_of_ne hb ..

@[simp] theorem alloc_cells_self (h : Heap α) (x : α) : (h.alloc x).1.cells h.next = x :=
  Function.update_self ..

/-- Writing what is there changes nothing. -/
@[simp] theorem write_self (h : Heap α) (a : Nat) : h.write a (h.cells a) = h := by
  rw [write, Function.update_eq_self]

/-- What had a place is as it was. -/
structure Keeps (h h' : Heap α) : Prop where
  next_le : h.next ≤ h'.next
  cells : ∀ a < h.next, h'.cells a = h.cells a

theorem Keeps.refl (h : Heap α) : h.Keeps h := ⟨le_rfl, fun _ _ => rfl⟩

theorem Keeps.trans (hk : h.Keeps h') (hk' : h'.Keeps h'') : h.Keeps h'' :=
  ⟨hk.next_le.trans hk'.next_le, fun a ha =>
    (hk'.cells a (ha.trans_le hk.next_le)).trans (hk.cells a ha)⟩

theorem Keeps.alloc (hk : h.Keeps h') (x : α) : h.Keeps (h'.alloc x).1 :=
  ⟨hk.next_le.trans (Nat.le_succ _), fun a ha => (Function.update_of_ne
    (ha.trans_le hk.next_le).ne _ _).trans (hk.cells a ha)⟩

/-- A place that was not given out may be written to. -/
theorem Keeps.write (hk : h.Keeps h') (ha : h.next ≤ a) (x : α) : h.Keeps (h'.write a x) :=
  ⟨hk.next_le, fun _ hb => (write_cells_of_ne (hb.trans_le ha).ne x).trans (hk.cells _ hb)⟩

end Heap

end Lib
