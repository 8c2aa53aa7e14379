import Mathlib

/-!
# Labelled transition systems

A system is a set of starting states and a labelled step relation.  `Reachable`
collects the states some run visits, and `Reachable.inv` is the one induction
over runs: an invariant that holds at the start and is kept by every step holds
in every reachable state.  `Reachable.inv_of` lets the step use a second
invariant that is already known.

`System.guard` keeps only the steps that meet a condition, so "every run whose
steps all meet `G`" is reachability in `S.guard G`.  `Path` is a run between two
given states, for the statements that speak of a stretch of a run.

`ofRun` is the deterministic case, a fold of a step function over a list of
inputs, with its own induction rule `run_inv`.
-/

namespace Lib.Transition

universe u v

variable {σ : Type u} {ι : Type v}

/-- A labelled transition system. -/
structure System (σ : Type u) (ι : Type v) where
  Init : σ → Prop
  Step : σ → ι → σ → Prop

/-- The states some run of the system visits. -/
inductive Reachable (S : System σ ι) : σ → Prop
  | init {s : σ} : S.Init s → Reachable S s
  | step {s t : σ} {i : ι} : Reachable S s → S.Step s i t → Reachable S t

/-- A run from one state to another, with the labels of its steps. -/
inductive Path (S : System σ ι) : σ → List ι → σ → Prop
  | refl (s : σ) : Path S s [] s
  | tail {s t u : σ} {is : List ι} {i : ι} : Path S s is t → S.Step t i u → Path S s (is ++ [i]) u

/-- What holds at the start and is kept by every step holds in every reachable state. -/
theorem Reachable.inv {S : System σ ι} {P : σ → Prop} (h0 : ∀ s, S.Init s → P s)
    (h1 : ∀ s i t, P s → S.Step s i t → P t) {s : σ} (h : Reachable S s) : P s := by
  induction h with
  | init hi => exact h0 _ hi
  | step _ hs ih => exact h1 _ _ _ ih hs

/-- As `Reachable.inv`, with a known invariant `Q` of the reachable states at hand. -/
theorem Reachable.inv_of {S : System σ ι} {P Q : σ → Prop} (hQ : ∀ {s}, Reachable S s → Q s)
    (h0 : ∀ s, S.Init s → P s) (h1 : ∀ s i t, Q s → P s → S.Step s i t → P t) {s : σ}
    (h : Reachable S s) : P s := by
  induction h with
  | init hi => exact h0 _ hi
  | step hr hs ih => exact h1 _ _ _ (hQ hr) ih hs

theorem Path.reachable {S : System σ ι} {s t : σ} {is : List ι} (h : Path S s is t)
    (hs : Reachable S s) : Reachable S t := by
  induction h with
  | refl => exact hs
  | tail _ hst ih => exact .step ih hst

/-! ### Executable systems -/

/-- The state after a list of labels, where every one of them can be taken. -/
def runSteps (f : σ → ι → Option σ) (s : σ) : List ι → Option σ
  | [] => some s
  | i :: is => (f s i).bind fun t => runSteps f t is

theorem runSteps_append (f : σ → ι → Option σ) (s : σ) (is js : List ι) :
    runSteps f s (is ++ js) = (runSteps f s is).bind fun t => runSteps f t js := by
  induction is generalizing s with
  | nil => rfl
  | cons i is ih =>
    rw [List.cons_append, runSteps, runSteps, Option.bind_assoc]
    simp only [ih]

theorem Path.cons {S : System σ ι} {s t u : σ} {i : ι} {is : List ι} (h : S.Step s i t)
    (hp : Path S t is u) : Path S s (i :: is) u := by
  induction hp with
  | refl => exact .tail (.refl s) h
  | tail _ hst ih => exact .tail ih hst

theorem Path.trans {S : System σ ι} {s t u : σ} {is js : List ι} (h : Path S s is t)
    (hp : Path S t js u) : Path S s (is ++ js) u := by
  induction hp with
  | refl => simpa using h
  | tail _ hst ih => exact List.append_assoc .. ▸ .tail ih hst

/-- A run that can be executed is a run of the system. -/
theorem Path.of_runSteps {S : System σ ι} {f : σ → ι → Option σ}
    (hf : ∀ {s i t}, f s i = some t → S.Step s i t) : ∀ {is : List ι} {s t : σ},
    runSteps f s is = some t → Path S s is t
  | [], _, _, h => Option.some.inj h ▸ .refl _
  | i :: is, s, t, h => by
    obtain ⟨u, hu, hrest⟩ := Option.bind_eq_some_iff.mp h
    exact .cons (hf hu) (of_runSteps hf hrest)

/-! ### Runs whose steps meet a condition -/

/-- The steps of `S` taken from a state and by a label that meet `G`. -/
def System.guard (S : System σ ι) (G : σ → ι → Prop) : System σ ι where
  Init := S.Init
  Step s i t := S.Step s i t ∧ G s i

theorem Reachable.of_guard {S : System σ ι} {G : σ → ι → Prop} {s : σ}
    (h : Reachable (S.guard G) s) : Reachable S s := by
  induction h with
  | init hi => exact .init hi
  | step _ hs ih => exact .step ih hs.1

/-- A run that keeps `P`, where every step taken from `P` meets `G`. -/
theorem Path.guard {S : System σ ι} {G : σ → ι → Prop} {P : σ → Prop} {is : List ι} {s t : σ}
    (h : Path S s is t) (hs : P s) (hP : ∀ s, ∀ i ∈ is, ∀ t, P s → S.Step s i t → P t)
    (hG : ∀ s, ∀ i ∈ is, P s → G s i) : Path (S.guard G) s is t ∧ P t := by
  induction h with
  | refl => exact ⟨.refl _, hs⟩
  | tail _ hst ih =>
    obtain ⟨hpath, ht⟩ := ih (fun s i hi => hP s i (by simp [hi])) fun s i hi => hG s i (by simp [hi])
    exact ⟨.tail hpath ⟨hst, hG _ _ (by simp) ht⟩, hP _ _ (by simp) _ ht hst⟩

/-! ### Deterministic systems -/

variable (f : σ → ι → σ)

/-- The state after a list of inputs. -/
def run (s : σ) (is : List ι) : σ := is.foldl f s

@[simp] theorem run_nil (s : σ) : run f s [] = s := rfl

@[simp] theorem run_cons (s : σ) (i : ι) (is : List ι) : run f s (i :: is) = run f (f s i) is :=
  rfl

theorem run_append (s : σ) (is js : List ι) : run f s (is ++ js) = run f (run f s is) js :=
  List.foldl_append

/-- What holds at the start and is kept by every input holds after every list of inputs. -/
theorem run_inv {P : σ → Prop} (h1 : ∀ s i, P s → P (f s i)) (is : List ι) (s : σ) (h : P s) :
    P (run f s is) := by
  induction is generalizing s with
  | nil => exact h
  | cons i is ih => exact ih _ (h1 _ _ h)

/-- Every input of the list meets `G` in the state it is given in. -/
def RunMeets (G : σ → ι → Prop) : σ → List ι → Prop
  | _, [] => True
  | s, i :: is => G s i ∧ RunMeets G (f s i) is

variable {f} in
/-- Two conditions that agree in every state agree on every list of inputs. -/
theorem runMeets_congr {G H : σ → ι → Prop} (h : ∀ s i, G s i ↔ H s i) {is : List ι} {s : σ} :
    RunMeets f G s is ↔ RunMeets f H s is := by
  induction is generalizing s with
  | nil => exact Iff.rfl
  | cons i is ih => exact and_congr (h s i) ih

/-- As `run_inv`, over the lists whose inputs all meet `G`. -/
theorem run_inv_of_meets {G : σ → ι → Prop} {P : σ → Prop}
    (h1 : ∀ s i, P s → G s i → P (f s i)) (is : List ι) (s : σ) (hG : RunMeets f G s is)
    (h : P s) : P (run f s is) := by
  induction is generalizing s with
  | nil => exact h
  | cons i is ih => exact ih _ hG.2 (h1 _ _ h hG.1)

end Lib.Transition
