import Mathlib

/-!
# A folder of files and directories

A folder by name, and the operations of a program that replaces something in it.  Each takes what
the operating system makes of it: whether it is refused, how far a copy comes and what a removal
leaves.

* `removeAll`, `copyTree`, `copyFile`, `rename`: the operations.
* `rename_spec`: what a rename needs and what it does.
* `copyTree_spec`: a copy goes into what is already there.
-/

namespace Lib.Folder

/-- A directory with everything in it: what there is at each path. -/
abbrev Tree := String → Option String

inductive Node where
  | dir (tree : Tree)
  | file (content : String) (mode : ℕ)

/-- What there is under each name. -/
abbrev Files := String → Option Node

variable {files : Files} {name other src dst : String}

/-! ### Removals -/

/-- The paths of a directory that a removal leaves; a file is left as it is. -/
def Node.keep (left : String → Bool) : Node → Node
  | .dir tree => .dir fun path => if left path then tree path else none
  | .file content mode => .file content mode

/-- Everything goes, or some paths are `left`. -/
def removeAll (left : Option (String → Bool)) (name : String) (files : Files) : Files :=
  Function.update files name (left.bind fun left => (files name).map (Node.keep left))

def remove (gone : Bool) (name : String) (files : Files) : Files :=
  if gone then Function.update files name none else files

theorem removeAll_other (left : Option (String → Bool)) (h : other ≠ name) :
    removeAll left name files other = files other := Function.update_of_ne h _ _

theorem remove_other (gone : Bool) (h : other ≠ name) :
    remove gone name files other = files other := by
  rw [remove]
  split
  · exact Function.update_of_ne h _ _
  · rfl

/-! ### Copies -/

/-- What a directory's content is copied over. -/
def Node.tree : Option Node → Tree
  | some (.dir tree) => tree
  | _ => fun _ => none

/-- A directory is copied into a place, where it is merged with the directory that is there.  A copy
that is `stopped` has come to some of the paths. -/
def copyTree (stopped : Option (String × (String → Bool))) (tree : Tree) (name : String)
    (files : Files) : Option String × Files :=
  let old := Node.tree (files name)
  match files name, stopped with
  | some (.file _ _), _ => (some "not a directory", files)
  | _, none => (none, Function.update files name
      (some (.dir fun path => (tree path).or (old path))))
  | _, some (err, copied) => (some err, Function.update files name
      (some (.dir fun path => if copied path then (tree path).or (old path) else old path)))

theorem copyTree_other (files : Files) (stopped : Option (String × (String → Bool))) (tree : Tree)
    (h : other ≠ name) : (copyTree stopped tree name files).2 other = files other := by
  unfold copyTree
  split
  · rfl
  · exact Function.update_of_ne h _ _
  · exact Function.update_of_ne h _ _

/-- Whether a directory may be copied into a place. -/
def Node.holdsTree : Option Node → Bool
  | some (.file _ _) => false
  | _ => true

/-- **A copy that goes through** leaves the directory, merged with what was there. -/
theorem copyTree_spec (stopped : Option (String × (String → Bool))) (tree : Tree)
    (h : (copyTree stopped tree name files).1 = none) :
    stopped = none ∧ Node.holdsTree (files name) = true ∧
      (copyTree stopped tree name files).2 name =
        some (.dir fun path => (tree path).or (Node.tree (files name) path)) := by
  unfold copyTree at h ⊢
  split at h
  · cases h
  · rename_i hfile
    refine ⟨rfl, ?_, Function.update_self ..⟩
    unfold Node.holdsTree
    split
    · rename_i hnode
      exact absurd hnode (hfile _ _)
    · rfl
  · cases h

theorem copyTree_eq_none (tree : Tree) (h : Node.holdsTree (files name) = true) :
    (copyTree none tree name files).1 = none := by
  unfold copyTree
  split
  · rename_i hnode
    rw [hnode] at h
    cases h
  · rfl
  · rename_i hstopped _
    cases hstopped

/-- What becomes of each step of the copy of a file; a copy that stops has written something. -/
structure Copying where
  openSource : Option String
  openDestination : Option String
  copy : Option (String × String)
  close : Option String
  chmod : Option String

/-- The mode of a file that is opened for writing: what is there keeps its mode. -/
def Node.modeOr (mode : ℕ) : Option Node → ℕ
  | some (.file _ old) => old
  | _ => mode

/-- The content of a file replaces what was in the place. -/
def copyFile (outcome : Copying) (content name : String) (mode : ℕ) (files : Files) :
    Option String × Files :=
  let written (content : String) (mode : ℕ) :=
    Function.update files name (some (.file content mode))
  let openMode := Node.modeOr mode (files name)
  match outcome.openSource, outcome.openDestination, files name with
  | some err, _, _ => (some err, files)
  | none, some err, _ => (some err, files)
  | none, none, some (.dir _) => (some "is a directory", files)
  | none, none, _ =>
    match outcome.copy, outcome.close, outcome.chmod with
    | some (part, err), _, _ => (some err, written part openMode)
    | none, some err, _ => (some err, written content openMode)
    | none, none, some err => (some err, written content openMode)
    | none, none, none => (none, written content mode)

theorem copyFile_other (files : Files) (outcome : Copying) (content : String) (mode : ℕ)
    (h : other ≠ name) : (copyFile outcome content name mode files).2 other = files other := by
  unfold copyFile
  split
  · rfl
  · rfl
  · rfl
  · split <;> exact Function.update_of_ne h _ _

/-- A copy that goes through leaves the file alone. -/
theorem copyFile_spec {outcome : Copying} {content : String} {mode : ℕ}
    (h : (copyFile outcome content name mode files).1 = none) :
    (copyFile outcome content name mode files).2 name = some (.file content mode) := by
  unfold copyFile at h ⊢
  split at h
  · cases h
  · cases h
  · cases h
  · split at h
    · cases h
    · cases h
    · cases h
    · exact Function.update_self ..

/-! ### Renames -/

/-- Why one name cannot take the place of another: a directory is not replaced, and no file by a
directory. -/
def blocked (src dst : Option Node) : Option String :=
  match src, dst with
  | none, _ => some "no such file or directory"
  | some _, some (.dir _) => some "file exists"
  | some (.dir _), some (.file _ _) => some "not a directory"
  | some (.file _ _), some (.file _ _) => none
  | some _, none => none

def rename (refused : Option String) (src dst : String) (files : Files) :
    Except String Files :=
  match refused.or (blocked (files src) (files dst)) with
  | some err => .error err
  | none => .ok (Function.update (Function.update files dst (files src)) src none)

/-- **A rename** needs that it is not refused and that nothing is in its way, and does nothing
else. -/
theorem rename_spec {refused : Option String} (h : rename refused src dst files = .ok files') :
    refused = none ∧ blocked (files src) (files dst) = none ∧
      files' = Function.update (Function.update files dst (files src)) src none := by
  rw [rename] at h
  split at h
  · cases h
  · rename_i hnone
    obtain ⟨hrefused, hblocked⟩ := Option.or_eq_none_iff.mp hnone
    exact ⟨hrefused, hblocked, (Except.ok.inj h).symm⟩

theorem rename_eq_ok (h : blocked (files src) (files dst) = none) :
    rename none src dst files =
      .ok (Function.update (Function.update files dst (files src)) src none) := by
  rw [rename, h]
  rfl

/-- A name that is free can be taken by anything. -/
theorem blocked_none {src : Option Node} (h : src ≠ none) : blocked src none = none := by
  cases src with
  | none => exact absurd rfl h
  | some node => cases node <;> rfl

theorem ne_none_of_blocked {src dst : Option Node} (h : blocked src dst = none) : src ≠ none := by
  rintro rfl
  cases h

end Lib.Folder
