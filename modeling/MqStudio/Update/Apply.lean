import MqStudio.Lib.Folder
import MqStudio.Update.Release

/-!
# Applying a package

`update/apply.go`: an application bundle is copied beside the one that is installed and the two are
swapped by renaming them; an AppImage is copied beside the one that is installed and renamed over
it.

* `swapBundle`, `applyAppImage`, `apply`: every step with what becomes of it.
* `Right`: the installed path has the old version after an error, and otherwise the new one.
* `apply_right_iff`: that is so exactly if nothing of an earlier attempt that is not in the new
  version is still there when the new version is copied and everything else goes through.
-/

namespace MqStudio.Update.Apply

open Lib.Folder

/-! ### Paths -/

/-- The last element of a path. -/
def base (path : String) : String := String.ofList (path.toList.rtakeWhile (· ≠ '/'))

/-- What is in front of the last element of a path, with the separator. -/
def parent (path : String) : String := String.ofList (path.toList.rdropWhile (· ≠ '/'))

def stagingOf (bundle : String) : String := parent bundle ++ ("." ++ base bundle ++ ".new")

def previousOf (bundle : String) : String := parent bundle ++ ("." ++ base bundle ++ ".old")

/-! ### Bundles -/

/-- What becomes of each step of a swap of bundles.  The rename that puts the old version back goes
through. -/
structure Swap where
  mkdirTemp : Option String
  attach : Option String
  clearStaging : Option (String → Bool)
  clearPrevious : Option (String → Bool)
  ditto : Option (String × (String → Bool))
  aside : Option String
  inPlace : Option String
  dropStaging : Option (String → Bool)
  dropPrevious : Option (String → Bool)

def swapBundle (outcome : Swap) (bundle : String) (source : Tree) (files : Files) :
    Option Error × Files :=
  let staging := stagingOf bundle
  let previous := previousOf bundle
  let files := removeAll outcome.clearStaging staging files
  let files := removeAll outcome.clearPrevious previous files
  match copyTree outcome.ditto source staging files with
  | (some err, files) => (some (.errorf "failed to copy the new version out of the disk image: "
      (.external err) ""), removeAll outcome.dropStaging staging files)
  | (none, files) =>
    match rename outcome.aside bundle previous files with
    | .error err => (some (.errorf "failed to move the current version aside: " (.external err) ""),
        removeAll outcome.dropStaging staging files)
    | .ok files =>
      match rename outcome.inPlace staging bundle files with
      | .error err =>
        let files := match rename none previous bundle files with
          | .ok files => files
          | .error _ => files
        (some (.errorf "failed to move the new version into place: " (.external err) ""),
          removeAll outcome.dropStaging staging files)
      | .ok files => (none, removeAll outcome.dropPrevious previous files)

/-- `image` is what is on the disk image. -/
def applyBundle (outcome : Swap) (bundle : String) (image : Files) (files : Files) :
    Option Error × Files :=
  match outcome.mkdirTemp, outcome.attach, image (base bundle) with
  | some err, _, _ => (some (.external err), files)
  | none, some err, _ =>
    (some (.errorf "failed to open the downloaded disk image: " (.external err) ""), files)
  | none, none, some (.dir source) => swapBundle outcome bundle source files
  | none, none, _ =>
    (some (.new ("the downloaded disk image does not contain " ++ base bundle)), files)

/-! ### AppImages -/

structure Replacement where
  copy : Copying
  inPlace : Option String
  dropStaging : Bool

/-- `0o755`. -/
def executable : ℕ := 493

def applyAppImage (outcome : Replacement) (current downloaded : String) (files : Files) :
    Option Error × Files :=
  let staging := current ++ ".new"
  match copyFile outcome.copy downloaded staging executable files with
  | (some err, files) => (some (.errorf "failed to stage the new AppImage: " (.external err) ""),
      remove outcome.dropStaging staging files)
  | (none, files) =>
    match rename outcome.inPlace staging current files with
    | .error err =>
      (some (.errorf "failed to move the new AppImage into place: " (.external err) ""),
        remove outcome.dropStaging staging files)
    | .ok files => (none, files)

/-! ### Apply -/

/-- The installer is started with the rights that it asks for. -/
def applyInstaller : Option Error → Option Error
  | none => none
  | some err =>
    if err.is errElevationDeclined then some err
    else some (.errorf "failed to start the installer: " err "")

/-- A package: a disk image with what is on it, or a file with what is in it. -/
structure Package where
  image : Files
  content : String

structure Outcome where
  stat : Option String
  swap : Swap
  replacement : Replacement
  elevate : Option Error

def apply (outcome : Outcome) (location : Location) (package : Package) (files : Files) :
    Option Error × Files :=
  if location.canInstall = false then
    (some (.errorf "" errNotInstallable (" (" ++ location.blocker.key ++ ")")), files)
  else
    match outcome.stat with
    | some err => (some (.errorf "the downloaded update is missing: " (.external err) ""), files)
    | none =>
      match location.kind with
      | .appBundle => applyBundle outcome.swap location.root package.image files
      | .appImage => applyAppImage outcome.replacement location.root package.content files
      | .installer => (applyInstaller outcome.elevate, files)
      | kind => (some (.errorf "" errNotInstallable (" (" ++ kind.key ++ ")")), files)

/-! ### What an update should do -/

/-- An update that replaces the installation by itself. -/
def Replaces (kind : Kind) : Prop := kind = .appBundle ∨ kind = .appImage

/-- What is installed from a package. -/
def newVersion (location : Location) (package : Package) : Option Node :=
  if location.kind = .appBundle then package.image (base location.root)
  else some (.file package.content executable)

/-- The old version after an error, and otherwise the new one and nothing else. -/
def Right (location : Location) (package : Package) (before : Files)
    (after : Option Error × Files) : Prop :=
  match after.1 with
  | some _ => after.2 location.root = before location.root
  | none => after.2 location.root = newVersion location package

/-- What a removal leaves in a place. -/
def leftIn (left : Option (String → Bool)) (node : Option Node) : Option Node :=
  left.bind fun left => node.map (Node.keep left)

/-- Every step of a swap of bundles goes through, once the leftovers were removed as well as they
were. -/
structure Swaps (outcome : Swap) (bundle : String) (files : Files) : Prop where
  mkdirTemp : outcome.mkdirTemp = none
  attach : outcome.attach = none
  ditto : outcome.ditto = none
  place : Node.holdsTree (leftIn outcome.clearStaging (files (stagingOf bundle))) = true
  aside : outcome.aside = none
  free : blocked (files bundle) (leftIn outcome.clearPrevious (files (previousOf bundle))) = none
  inPlace : outcome.inPlace = none

/-- What is left of an earlier attempt is in the new version too, and copied over. -/
def Covered (outcome : Swap) (bundle : String) (source : Tree) (files : Files) : Prop :=
  ∀ path, (Node.tree (leftIn outcome.clearStaging (files (stagingOf bundle))) path).isSome = true →
    (source path).isSome = true

/-- If a new bundle is put in place, nothing is left of an earlier one where it was copied to. -/
def Clean (outcome : Outcome) (location : Location) (package : Package) (files : Files) : Prop :=
  location.canInstall = true → outcome.stat = none → location.kind = .appBundle →
    Swaps outcome.swap location.root files → ∀ source,
      package.image (base location.root) = some (.dir source) →
        Covered outcome.swap location.root source files

/-! ### The paths differ -/

theorem parent_append_base (path : String) : parent path ++ base path = path := by
  rw [← String.toList_inj, String.toList_append, parent, base, String.toList_ofList,
    String.toList_ofList, List.rdropWhile_append_rtakeWhile]

theorem stagingOf_ne (bundle : String) : stagingOf bundle ≠ bundle := by
  intro h
  have hlength := congrArg String.length (h.trans (parent_append_base bundle).symm)
  have hdot : (".").length = 1 := rfl
  rw [stagingOf, String.length_append, String.length_append, String.length_append,
    String.length_append] at hlength
  omega

theorem previousOf_ne (bundle : String) : previousOf bundle ≠ bundle := by
  intro h
  have hlength := congrArg String.length (h.trans (parent_append_base bundle).symm)
  have hdot : (".").length = 1 := rfl
  rw [previousOf, String.length_append, String.length_append, String.length_append,
    String.length_append] at hlength
  omega

theorem stagingOf_ne_previousOf (bundle : String) : stagingOf bundle ≠ previousOf bundle := by
  intro h
  have hchars := congrArg String.toList h
  simp only [stagingOf, previousOf, String.toList_append, List.append_cancel_left_eq] at hchars
  exact absurd hchars (by decide)

theorem append_new_ne (current : String) : current ++ ".new" ≠ current := by
  intro h
  have hlength := congrArg String.length h
  have hnew : (".new").length = 4 := rfl
  rw [String.length_append] at hlength
  omega

/-! ### A swap -/

section Swapping

variable {outcome : Swap} {bundle : String} {source : Tree} {image files : Files}

/-- The leftovers are removed as well as they can be. -/
def cleared (outcome : Swap) (bundle : String) (files : Files) : Files :=
  removeAll outcome.clearPrevious (previousOf bundle)
    (removeAll outcome.clearStaging (stagingOf bundle) files)

theorem cleared_bundle : cleared outcome bundle files bundle = files bundle := by
  rw [cleared, removeAll_other _ (previousOf_ne bundle).symm,
    removeAll_other _ (stagingOf_ne bundle).symm]

theorem cleared_staging : cleared outcome bundle files (stagingOf bundle) =
    leftIn outcome.clearStaging (files (stagingOf bundle)) := by
  rw [cleared, removeAll_other _ (stagingOf_ne_previousOf bundle), removeAll,
    Function.update_self, leftIn]

theorem cleared_previous : cleared outcome bundle files (previousOf bundle) =
    leftIn outcome.clearPrevious (files (previousOf bundle)) := by
  rw [cleared, removeAll, Function.update_self,
    removeAll_other _ (stagingOf_ne_previousOf bundle).symm, leftIn]

/-- **A swap that fails** leaves the old bundle where it was. -/
theorem swapBundle_failed {err : Error}
    (h : (swapBundle outcome bundle source files).1 = some err) :
    (swapBundle outcome bundle source files).2 bundle = files bundle := by
  have hstaging := (stagingOf_ne bundle).symm
  have hprevious := (previousOf_ne bundle).symm
  have hcopied := copyTree_other (cleared outcome bundle files) outcome.ditto source
    hstaging
  rw [cleared_bundle] at hcopied
  unfold swapBundle at h ⊢
  dsimp only at h ⊢
  rw [← cleared] at h ⊢
  split
  · rename_i err' files' hcopy
    rw [hcopy] at hcopied
    exact (removeAll_other _ hstaging).trans hcopied
  · rename_i files' hcopy
    rw [hcopy] at hcopied h
    dsimp only at hcopied h
    split
    · exact (removeAll_other _ hstaging).trans hcopied
    · rename_i moved haside
      obtain ⟨-, hblocked, rfl⟩ := rename_spec haside
      split
      · -- the way back is free: the bundle was moved from where it is put back
        rw [rename_eq_ok]
        · dsimp only
          rw [removeAll_other _ hstaging, Function.update_of_ne hprevious, Function.update_self,
            Function.update_of_ne (previousOf_ne bundle), Function.update_self, hcopied]
        · rw [Function.update_self, Function.update_of_ne (previousOf_ne bundle),
            Function.update_self]
          exact blocked_none (ne_none_of_blocked hblocked)
      · rename_i hinPlace
        rw [haside] at h
        dsimp only at h
        rw [hinPlace] at h
        cases h

/-- What the new bundle is merged with. -/
def merged (outcome : Swap) (bundle : String) (source : Tree) (files : Files) : Tree :=
  fun path => (source path).or
    (Node.tree (leftIn outcome.clearStaging (files (stagingOf bundle))) path)

/-- **A swap that goes through** puts the copy in place, with what it was copied over. -/
theorem swapBundle_done (hmkdir : outcome.mkdirTemp = none) (hattach : outcome.attach = none)
    (h : (swapBundle outcome bundle source files).1 = none) :
    Swaps outcome bundle files ∧ (swapBundle outcome bundle source files).2 bundle =
      some (.dir (merged outcome bundle source files)) := by
  have hstaging := (stagingOf_ne bundle).symm
  have hprevious := (previousOf_ne bundle).symm
  have hother := copyTree_other (cleared outcome bundle files) outcome.ditto source
    hstaging
  have haway := copyTree_other (cleared outcome bundle files) outcome.ditto source
    (stagingOf_ne_previousOf bundle).symm
  have hspec := @copyTree_spec (cleared outcome bundle files) (stagingOf bundle) outcome.ditto
    source
  rw [cleared_bundle] at hother
  rw [cleared_previous] at haway
  unfold swapBundle at h ⊢
  dsimp only at h ⊢
  rw [← cleared] at h ⊢
  split at h
  · cases h
  · rename_i files' hcopy
    rw [hcopy] at hother haway hspec
    obtain ⟨hditto, hplace, hcopied⟩ := hspec rfl
    rw [cleared_staging] at hplace hcopied
    dsimp only at hother haway hcopied
    split at h
    · cases h
    · rename_i moved haside
      obtain ⟨hnone, hblocked, rfl⟩ := rename_spec haside
      rw [hother, haway] at hblocked
      split at h
      · cases h
      · rename_i swapped hinPlace
        obtain ⟨hnone', -, rfl⟩ := rename_spec hinPlace
        refine ⟨⟨hmkdir, hattach, hditto, hplace, hnone, hblocked, hnone'⟩, ?_⟩
        dsimp only
        rw [removeAll_other _ hprevious, Function.update_of_ne hstaging, Function.update_self,
          Function.update_of_ne (stagingOf_ne bundle),
          Function.update_of_ne (stagingOf_ne_previousOf bundle), hcopied]
        rfl

/-- Where every step goes through, so does the swap. -/
theorem swapBundle_of_swaps (h : Swaps outcome bundle files) :
    (swapBundle outcome bundle source files).1 = none := by
  have hstaging := (stagingOf_ne bundle).symm
  have hother := copyTree_other (cleared outcome bundle files) none source hstaging
  have haway := copyTree_other (cleared outcome bundle files) none source
    (stagingOf_ne_previousOf bundle).symm
  have hplace : Node.holdsTree (cleared outcome bundle files (stagingOf bundle)) = true := by
    rw [cleared_staging]
    exact h.place
  have hnone := copyTree_eq_none source hplace
  obtain ⟨-, -, hcopied⟩ := copyTree_spec none source hnone
  rw [cleared_bundle] at hother
  rw [cleared_previous] at haway
  unfold swapBundle
  dsimp only
  rw [← cleared, h.ditto]
  split
  · rename_i hcopy
    rw [hcopy] at hnone
    cases hnone
  · rename_i files' hcopy
    rw [hcopy] at hother haway hcopied
    dsimp only at hother haway hcopied
    rw [h.aside, rename_eq_ok (by rw [hother, haway]; exact h.free)]
    dsimp only
    rw [h.inPlace, rename_eq_ok]
    rw [Function.update_self, Function.update_of_ne (stagingOf_ne bundle),
      Function.update_of_ne (stagingOf_ne_previousOf bundle), hcopied]
    rfl

/-- The copy is the new version exactly if it covers what it was copied over. -/
theorem merged_eq_iff : merged outcome bundle source files = source ↔
    Covered outcome bundle source files := by
  constructor
  · intro heq path hleft
    have hpath := congrFun heq path
    cases hsource : source path with
    | some content => rfl
    | none =>
      rw [merged, hsource, Option.none_or] at hpath
      rw [hpath] at hleft
      cases hleft
  · intro hcovered
    funext path
    cases hsource : source path with
    | some content => rw [merged, hsource, Option.some_or]
    | none =>
      rw [merged, hsource, Option.none_or]
      cases hleft : Node.tree (leftIn outcome.clearStaging (files (stagingOf bundle))) path with
      | none => rfl
      | some content =>
        have := hcovered path (by rw [hleft]; rfl)
        rw [hsource] at this
        cases this

end Swapping

/-! ### What an update does -/

section Applying

variable {outcome : Outcome} {location : Location} {package : Package} {files : Files}

/-- A bundle is right after an error, and otherwise if the copy is the new version. -/
theorem applyBundle_right_iff (outcome : Outcome) (h : location.kind = .appBundle) :
    Right location package files
        (applyBundle outcome.swap location.root package.image files) ↔
      (Swaps outcome.swap location.root files → ∀ source,
        package.image (base location.root) = some (.dir source) →
          Covered outcome.swap location.root source files) := by
  have hnew : newVersion location package = package.image (base location.root) := if_pos h
  unfold applyBundle
  split
  · rename_i err hmkdir
    refine iff_of_true rfl fun hswaps => ?_
    rw [hswaps.mkdirTemp] at hmkdir
    cases hmkdir
  · rename_i err hmkdir hattach
    refine iff_of_true rfl fun hswaps => ?_
    rw [hswaps.attach] at hattach
    cases hattach
  · rename_i source hmkdir hattach himage
    cases hresult : (swapBundle outcome.swap location.root source files).1 with
    | some err =>
      refine iff_of_true ?_ fun hswaps => ?_
      · rw [Right, hresult]
        exact swapBundle_failed hresult
      · rw [swapBundle_of_swaps hswaps] at hresult
        cases hresult
    | none =>
      obtain ⟨hswaps, hdone⟩ := swapBundle_done hmkdir hattach hresult
      rw [Right, hresult]
      dsimp only
      rw [hdone, hnew, himage, Option.some.injEq, Node.dir.injEq, merged_eq_iff]
      constructor
      · intro hcovered _ source' heq
        cases heq
        exact hcovered
      · exact fun hcovered => hcovered hswaps source rfl
  · rename_i hdir
    refine iff_of_true rfl fun _ source himage => ?_
    exact absurd himage (hdir source)

/-- An AppImage is always right: the copy is only renamed once it is whole. -/
theorem applyAppImage_right (h : location.kind = .appImage) :
    Right location package files
      (applyAppImage outcome.replacement location.root package.content files) := by
  have hnew : newVersion location package = some (.file package.content executable) :=
    if_neg (by rw [h]; decide)
  have hstaging := (append_new_ne location.root).symm
  have hother := copyFile_other files outcome.replacement.copy package.content executable
    hstaging
  have hspec := @copyFile_spec files (location.root ++ ".new") outcome.replacement.copy
    package.content executable
  unfold applyAppImage
  dsimp only
  split
  · rename_i err files' hcopy
    rw [hcopy] at hother
    exact (remove_other _ hstaging).trans hother
  · rename_i files' hcopy
    rw [hcopy] at hother hspec
    split
    · exact (remove_other _ hstaging).trans hother
    · rename_i moved hinPlace
      obtain ⟨-, -, rfl⟩ := rename_spec hinPlace
      rw [Right]
      dsimp only
      rw [Function.update_of_ne hstaging, Function.update_self, hnew]
      exact hspec rfl

/-- **An update leaves a whole application in place** exactly if nothing of an earlier attempt
is mixed with a bundle that is put in place. -/
theorem apply_right_iff (outcome : Outcome) (location : Location) (package : Package)
    (files : Files) (h : Replaces location.kind) :
    Right location package files (apply outcome location package files) ↔
      Clean outcome location package files := by
  unfold apply Clean
  split
  · rename_i hno
    refine iff_of_true rfl fun hcan => ?_
    rw [hno] at hcan
    cases hcan
  · rename_i hcan
    have hcan : location.canInstall = true := eq_true_of_ne_false hcan
    split
    · rename_i err hstat
      refine iff_of_true rfl fun _ hnone => ?_
      rw [hstat] at hnone
      cases hnone
    · rename_i hstat
      rcases h with hkind | hkind
      · rw [hkind]
        dsimp only
        rw [applyBundle_right_iff outcome hkind]
        exact ⟨fun hclean _ _ _ => hclean, fun hclean => hclean hcan hstat rfl⟩
      · rw [hkind]
        exact iff_of_true (applyAppImage_right hkind) fun _ _ hbundle => nomatch hbundle

end Applying


/-! ### What an earlier attempt left -/

/-- Every step goes through, but the removal of the first leftovers may leave some of them. -/
def outcomeLeaving (left : Option (String → Bool)) : Outcome where
  stat := none
  swap := ⟨none, none, left, none, none, none, none, none, none⟩
  replacement := ⟨⟨none, none, none, none, none⟩, none, true⟩
  elevate := none

def inApplications : Location where
  kind := .appBundle
  root := "/Applications/MQ Studio.app"

def treeOf (path content : String) : Tree := fun p => if p = path then some content else none

/-- The old version, and what an attempt to install another one has left beside it. -/
def interrupted : Files := fun path =>
  if path = stagingOf inApplications.root then some (.dir (treeOf "Contents/Helper" "v2"))
  else if path = inApplications.root then some (.dir (treeOf "Contents/MacOS" "v1"))
  else none

def diskImage : Package where
  image := fun _ => some (.dir (treeOf "Contents/MacOS" "v3"))
  content := ""

theorem interrupted_staging : interrupted (stagingOf inApplications.root) =
    some (.dir (treeOf "Contents/Helper" "v2")) := if_pos rfl

theorem interrupted_swaps (left : Option (String → Bool)) :
    Swaps (outcomeLeaving left).swap inApplications.root interrupted := by
  refine ⟨rfl, rfl, rfl, ?_, rfl, ?_, rfl⟩
  · rw [interrupted_staging]
    cases left <;> rfl
  · refine blocked_none fun hnone => ?_
    rw [interrupted, if_neg (stagingOf_ne _).symm, if_pos rfl] at hnone
    cases hnone

/-- Where the leftovers are removed, the new version is installed. -/
theorem removed_leftovers_right : Right inApplications diskImage interrupted
    (apply (outcomeLeaving none) inApplications diskImage interrupted) := by
  have hkind : Replaces inApplications.kind := .inl rfl
  rw [apply_right_iff (outcomeLeaving none) inApplications diskImage interrupted hkind]
  intro _ _ _ _ source _ path hleft
  have hnone : leftIn (outcomeLeaving none).swap.clearStaging
      (interrupted (stagingOf inApplications.root)) = none := Option.bind_none _
  rw [hnone] at hleft
  exact absurd hleft (by simp [Node.tree])

/-- A helper of the attempt before is installed with the new version, and no error is returned. -/
theorem leftover_helper_installed : ¬Right inApplications diskImage interrupted
    (apply (outcomeLeaving (some fun _ => true)) inApplications diskImage interrupted) := by
  intro hright
  have hcovered : Covered (outcomeLeaving (some fun _ => true)).swap inApplications.root
      (treeOf "Contents/MacOS" "v3") interrupted :=
    (applyBundle_right_iff (outcomeLeaving (some fun _ => true)) rfl).mp hright
      (interrupted_swaps _) _ rfl
  have hleft : (Node.tree (leftIn (some fun _ => true) (interrupted (stagingOf
      inApplications.root))) "Contents/Helper").isSome = true := by
    rw [interrupted_staging]
    simp [leftIn, Node.keep, Node.tree, treeOf]
  have hsource := hcovered "Contents/Helper" hleft
  rw [treeOf, if_neg (by decide)] at hsource
  cases hsource


end MqStudio.Update.Apply
