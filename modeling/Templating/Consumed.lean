/-!
# Consumed input

A reader that takes a value off the front of a list gives the value and what is left, with the proof
that something was taken. The proof is what lets readers call each other: every loop ends because
each turn leaves less.
-/

namespace Templating

/-- A value read off the front of `input`, and the rest, which is shorter. -/
structure Consumed {τ : Type} (input : List τ) (α : Type) where
  value : α
  rest : List τ
  shorter : rest.length < input.length

namespace Consumed

variable {τ α β : Type} {input : List τ}

def map (f : α → β) (c : Consumed input α) : Consumed input β :=
  ⟨f c.value, c.rest, c.shorter⟩

def weaken {longer : List τ} (h : input.length ≤ longer.length) (c : Consumed input α) :
    Consumed longer α :=
  ⟨c.value, c.rest, Nat.lt_of_lt_of_le c.shorter h⟩

def step {γ : Type} (c : Consumed input α) (next : Consumed c.rest β) (value : γ) :
    Consumed input γ :=
  ⟨value, next.rest, Nat.lt_trans next.shorter c.shorter⟩

@[simp] theorem map_value (f : α → β) (c : Consumed input α) : (c.map f).value = f c.value := rfl

@[simp] theorem map_rest (f : α → β) (c : Consumed input α) : (c.map f).rest = c.rest := rfl

@[simp] theorem step_value {γ : Type} (c : Consumed input α) (next : Consumed c.rest β)
    (value : γ) : (c.step next value).value = value := rfl

@[simp] theorem step_rest {γ : Type} (c : Consumed input α) (next : Consumed c.rest β)
    (value : γ) : (c.step next value).rest = next.rest := rfl

end Consumed

end Templating
