import Mathlib

/-!
# A directory that may lose power

The files of one directory as the running system sees them, and what of that a power loss leaves: an
entry may come back as it was at any time before, and of a file anything may be left that was not
synced after it was last written.

* `create`, `append`, `sync`, `rename`, `remove`: the operations.
* `Lost`: a power loss.
* `Holds`: only what `Q` allows stands under a name, also after a power loss.
* `Holds.setEntry`, `Holds.of_entry`, `Holds.lost`: what keeps it.
-/

namespace Lib.Disk

universe u

variable {α : Type u}

/-- A directory and the files it names.  Files are numbered as they are created. -/
structure Directory (α : Type u) where
  entry : String → Option ℕ
  /-- What else a power loss may leave of an entry. -/
  past : String → List (Option ℕ)
  content : ℕ → List α
  /-- The files whose content is on the disk. -/
  synced : ℕ → Bool
  next : ℕ

/-! ### Operations -/

def Directory.read (d : Directory α) (name : String) : Option (List α) :=
  (d.entry name).map d.content

def Directory.setEntry (d : Directory α) (name : String) (e : Option ℕ) : Directory α :=
  { d with
    entry := Function.update d.entry name e
    past := Function.update d.past name (d.entry name :: d.past name) }

/-- A new file that is empty. -/
def Directory.create (d : Directory α) (name : String) : Directory α :=
  { d with
    content := Function.update d.content d.next []
    synced := Function.update d.synced d.next false
    next := d.next + 1 }.setEntry name (some d.next)

def Directory.append (d : Directory α) (file : ℕ) (chunk : List α) : Directory α :=
  { d with
    content := Function.update d.content file (d.content file ++ chunk)
    synced := Function.update d.synced file false }

def Directory.sync (d : Directory α) (file : ℕ) : Directory α :=
  { d with synced := Function.update d.synced file true }

/-- A file is moved over whatever has the other name; none if there is no such file. -/
def Directory.rename (d : Directory α) (src dst : String) : Option (Directory α) :=
  (d.entry src).map fun file => (d.setEntry dst (some file)).setEntry src none

def Directory.remove (d : Directory α) (name : String) : Directory α := d.setEntry name none

/-- What a power loss leaves. -/
structure Lost (d after : Directory α) : Prop where
  entry : ∀ name, after.entry name ∈ d.entry name :: d.past name
  past : ∀ name, after.past name = []
  content : ∀ file, d.synced file = true → after.content file = d.content file
  synced : ∀ file, after.synced file = true
  next : after.next = d.next

/-! ### What they leave alone -/

variable {d after : Directory α} {name other src dst : String} {file : ℕ} {e : Option ℕ}
  {chunk : List α}

@[simp] theorem entry_setEntry : (d.setEntry name e).entry name = e := Function.update_self ..

theorem entry_setEntry_of_ne (h : other ≠ name) :
    (d.setEntry name e).entry other = d.entry other := Function.update_of_ne h ..

theorem past_setEntry_of_ne (h : other ≠ name) :
    (d.setEntry name e).past other = d.past other := Function.update_of_ne h ..

@[simp] theorem past_setEntry :
    (d.setEntry name e).past name = d.entry name :: d.past name := Function.update_self ..

@[simp] theorem content_setEntry : (d.setEntry name e).content = d.content := rfl

@[simp] theorem synced_setEntry : (d.setEntry name e).synced = d.synced := rfl

@[simp] theorem next_setEntry : (d.setEntry name e).next = d.next := rfl

@[simp] theorem content_append : (d.append file chunk).content file = d.content file ++ chunk :=
  Function.update_self ..

theorem content_append_of_ne {i : ℕ} (h : i ≠ file) :
    (d.append file chunk).content i = d.content i := Function.update_of_ne h ..

theorem synced_append_of_ne {i : ℕ} (h : i ≠ file) :
    (d.append file chunk).synced i = d.synced i := Function.update_of_ne h ..

theorem content_create_of_ne {i : ℕ} (h : i ≠ d.next) :
    (d.create name).content i = d.content i := Function.update_of_ne h ..

theorem synced_create_of_ne {i : ℕ} (h : i ≠ d.next) :
    (d.create name).synced i = d.synced i := Function.update_of_ne h ..

@[simp] theorem content_create : (d.create name).content d.next = [] := Function.update_self ..

@[simp] theorem entry_create : (d.create name).entry name = some d.next := Function.update_self ..

theorem entry_create_of_ne (h : other ≠ name) : (d.create name).entry other = d.entry other :=
  Function.update_of_ne h ..

theorem synced_sync {i : ℕ} (h : d.synced i = true) : (d.sync file).synced i = true := by
  by_cases hi : i = file
  · subst hi
    exact Function.update_self ..
  · exact (Function.update_of_ne hi ..).trans h

theorem rename_some (h : d.rename src dst = some after) :
    ∃ file, d.entry src = some file ∧
      after = (d.setEntry dst (some file)).setEntry src none := by
  obtain ⟨file, hfile, rfl⟩ := Option.map_eq_some_iff.mp h
  exact ⟨file, hfile, rfl⟩

/-! ### Names under which only whole files stand -/

/-- A file that stands under a name, or that a power loss may put there. -/
def Directory.Refers (d : Directory α) (name : String) (file : ℕ) : Prop :=
  some file ∈ d.entry name :: d.past name

/-- Whatever stands under a name is as `Q` allows and will be so after a power loss. -/
structure Holds (Q : Option (List α) → Prop) (d : Directory α) (name : String) : Prop where
  file : ∀ i, d.Refers name i → d.synced i = true ∧ i < d.next
  content : ∀ e ∈ d.entry name :: d.past name, Q (e.map d.content)

variable {Q R : Option (List α) → Prop}

theorem Directory.refers_of_entry (h : d.entry name = some file) : d.Refers name file := by
  rw [Directory.Refers, h]
  exact List.mem_cons_self

theorem Holds.read (h : Holds Q d name) : Q (d.read name) := h.content _ List.mem_cons_self

theorem Holds.mono (h : Holds Q d name) (himp : ∀ o, Q o → R o) : Holds R d name :=
  ⟨h.file, fun e he => himp _ (h.content e he)⟩

/-- The entries of the name and the files they refer to are as they were. -/
theorem Holds.of_entry (h : Holds Q d name) (hentry : after.entry name = d.entry name)
    (hpast : after.past name = d.past name)
    (hcontent : ∀ i, d.Refers name i → after.content i = d.content i)
    (hsynced : ∀ i, d.Refers name i → after.synced i = true) (hnext : d.next ≤ after.next) :
    Holds Q after name := by
  refine ⟨fun i hi => ?_, fun e he => ?_⟩
  · rw [Directory.Refers, hentry, hpast] at hi
    exact ⟨hsynced i hi, lt_of_lt_of_le (h.file i hi).2 hnext⟩
  · rw [hentry, hpast] at he
    have hmap : e.map after.content = e.map d.content := by
      cases e with
      | none => rfl
      | some i => exact congrArg some (hcontent i he)
    rw [hmap]
    exact h.content e he

theorem Holds.setEntry_of_ne (h : Holds Q d name) (hne : name ≠ other) :
    Holds Q (d.setEntry other e) name :=
  h.of_entry (entry_setEntry_of_ne hne) (past_setEntry_of_ne hne) (fun _ _ => rfl)
    (fun i hi => (h.file i hi).1) le_rfl

/-- A whole file is given the name. -/
theorem Holds.setEntry (h : Holds Q d name) (hsynced : d.synced file = true)
    (hlt : file < d.next) (hq : Q (some (d.content file))) :
    Holds Q (d.setEntry name (some file)) name := by
  refine ⟨fun i hi => ?_, fun e he => ?_⟩
  · rw [Directory.Refers, entry_setEntry, past_setEntry] at hi
    rcases List.mem_cons.mp hi with hi | hi
    · obtain rfl := Option.some.inj hi
      exact ⟨hsynced, hlt⟩
    · exact h.file i hi
  · rw [entry_setEntry, past_setEntry] at he
    rcases List.mem_cons.mp he with rfl | he
    · exact hq
    · exact h.content e he

theorem Holds.create (h : Holds Q d name) (hne : name ≠ other) :
    Holds Q (d.create other) name :=
  h.of_entry (entry_setEntry_of_ne hne) (past_setEntry_of_ne hne)
    (fun i hi => content_create_of_ne (h.file i hi).2.ne)
    (fun i hi => (synced_create_of_ne (h.file i hi).2.ne).trans (h.file i hi).1)
    (Nat.le_succ _)

/-- A file that nothing refers to is written. -/
theorem Holds.append (h : Holds Q d name) (hfile : ¬ d.Refers name file) :
    Holds Q (d.append file chunk) name := by
  have hne : ∀ i, d.Refers name i → i ≠ file := by
    rintro i hi rfl
    exact hfile hi
  exact h.of_entry rfl rfl (fun i hi => content_append_of_ne (hne i hi))
    (fun i hi => (synced_append_of_ne (hne i hi)).trans (h.file i hi).1) le_rfl

theorem Holds.sync (h : Holds Q d name) : Holds Q (d.sync file) name :=
  h.of_entry rfl rfl (fun _ _ => rfl) (fun i hi => synced_sync (h.file i hi).1) le_rfl

/-- **A power loss** leaves what is allowed. -/
theorem Holds.lost (h : Holds Q d name) (hl : Lost d after) : Holds Q after name := by
  have hcontent : ∀ i, d.Refers name i → after.content i = d.content i :=
    fun i hi => hl.content i (h.file i hi).1
  refine ⟨fun i hi => ⟨hl.synced i, ?_⟩, fun e he => ?_⟩
  · rw [Directory.Refers, hl.past, List.mem_singleton] at hi
    rw [hl.next]
    have hmem := hl.entry name
    rw [← hi] at hmem
    exact (h.file i hmem).2
  · rw [hl.past, List.mem_singleton] at he
    subst he
    have hmap : (after.entry name).map after.content = (after.entry name).map d.content := by
      cases he : after.entry name with
      | none => rfl
      | some i =>
        have hmem := hl.entry name
        rw [he] at hmem
        exact congrArg some (hcontent i hmem)
    rw [hmap]
    exact h.content _ (hl.entry name)

/-! ### What is read -/

theorem read_setEntry_of_ne (h : name ≠ other) :
    (d.setEntry other e).read name = d.read name := by
  rw [Directory.read, entry_setEntry_of_ne h]
  rfl

@[simp] theorem read_sync : (d.sync file).read name = d.read name := rfl

theorem read_append (h : ¬ d.Refers name file) : (d.append file chunk).read name = d.read name := by
  change (d.entry name).map (d.append file chunk).content = (d.entry name).map d.content
  cases he : d.entry name with
  | none => rfl
  | some i =>
    have hne : i ≠ file := by
      rintro rfl
      exact h (Directory.refers_of_entry he)
    exact congrArg some (content_append_of_ne hne)

theorem Holds.read_create (h : Holds Q d name) (hne : name ≠ other) :
    (d.create other).read name = d.read name := by
  rw [Directory.read, entry_create_of_ne hne]
  change (d.entry name).map (d.create other).content = (d.entry name).map d.content
  cases he : d.entry name with
  | none => rfl
  | some i =>
    have hi := h.file i (Directory.refers_of_entry he)
    exact congrArg some (content_create_of_ne hi.2.ne)

/-- A name that refers to no file a step touches. -/
theorem refers_setEntry_of_ne (hne : name ≠ other) :
    (d.setEntry other e).Refers name file ↔ d.Refers name file := by
  rw [Directory.Refers, entry_setEntry_of_ne hne, past_setEntry_of_ne hne, Directory.Refers]

theorem refers_setEntry :
    (d.setEntry name e).Refers name file ↔ some file = e ∨ d.Refers name file := by
  rw [Directory.Refers, entry_setEntry, past_setEntry, List.mem_cons, Directory.Refers]

end Lib.Disk
