import Mathlib.Logic.Function.Basic
import Mathlib.Tactic.SplitIfs

namespace Js

inductive Outcome (Value : Type) where
  | fulfilled (value : Value)
  | rejected (reason : Value)
  deriving DecidableEq

-- How a callback ends: with a value, with an exception, or with another promise.
inductive Completion (Name Value : Type) where
  | normal (value : Value)
  | throw (reason : Value)
  | promise (other : Name)

-- The callbacks of `then`. Without a callback the outcome is passed on.
structure Reaction (Callback : Type) where
  onFulfilled : Option Callback
  onRejected : Option Callback

def Reaction.pass {Callback : Type} : Reaction Callback := ⟨none, none⟩

-- A promise that `then` makes, or an `await` of the function that it belongs to, has one reaction.
-- The reaction is kept with this promise, first registered at the promise it reacts to and then as
-- a job. A promise that was resolved with another one first waits for the job that follows it.
inductive Promise (Name Callback Value : Type) where
  | pending
  | waits (on : Name) (reaction : Reaction Callback)
  | queued (on : Name) (reaction : Reaction Callback) (outcome : Outcome Value)
  | adopts (other : Name)
  | settled (outcome : Outcome Value)

abbrev Promises (Name Callback Value : Type) := Name → Promise Name Callback Value

section Operations

variable {Name Callback Value : Type} [DecidableEq Name]

def Promise.isPending : Promise Name Callback Value → Bool
  | .pending => true
  | _ => false

def Promise.notify (name : Name) (outcome : Outcome Value) :
    Promise Name Callback Value → Promise Name Callback Value
  | .waits on reaction => if on = name then .queued on reaction outcome else .waits on reaction
  | promise => promise

def Outcome.completion : Outcome Value → Completion Name Value
  | .fulfilled value => .normal value
  | .rejected reason => .throw reason

namespace Promises

-- The reactions that are registered at a promise become jobs when it settles.
def settle (name : Name) (outcome : Outcome Value) (promises : Promises Name Callback Value) :
    Promises Name Callback Value :=
  fun other => if other = name then .settled outcome else (promises other).notify name outcome

-- The reaction of `name` is registered at `on`, or becomes a job at once.
def follow (name on : Name) (reaction : Reaction Callback)
    (promises : Promises Name Callback Value) :
    Promises Name Callback Value :=
  Function.update promises name <|
    match promises on with
    | .settled outcome => .queued on reaction outcome
    | _ => .waits on reaction

def resolve (name : Name) (completion : Completion Name Value)
    (promises : Promises Name Callback Value) :
    Promises Name Callback Value :=
  match completion with
  | .normal value => promises.settle name (.fulfilled value)
  | .throw reason => promises.settle name (.rejected reason)
  | .promise other => Function.update promises name (.adopts other)

end Promises

end Operations

-- What may happen to each promise: which promises it may follow and with what reactions, which ones
-- it may be resolved with, and how it may end. `idle` is what a pending promise promises.
structure Contract (Name Callback Value : Type) where
  idle : Name → Prop
  follows : Name → Name → Reaction Callback → Prop
  adopts : Name → Name → Prop
  ends : Name → Outcome Value → Prop

section Contracts

variable {Name Callback Value : Type}

def Promise.Meets (contract : Contract Name Callback Value) (name : Name) :
    Promise Name Callback Value → Prop
  | .pending => contract.idle name
  | .waits on reaction => contract.follows name on reaction
  | .queued on reaction outcome => contract.follows name on reaction ∧ contract.ends on outcome
  | .adopts other => contract.adopts name other
  | .settled outcome => contract.ends name outcome

def Keeps (contract : Contract Name Callback Value) (promises : Promises Name Callback Value) :
    Prop :=
  ∀ name, (promises name).Meets contract name

variable {contract contract' : Contract Name Callback Value}
  {promises : Promises Name Callback Value} {name other on : Name} {reaction : Reaction Callback}
  {outcome : Outcome Value} {completion : Completion Name Value}
  {promise : Promise Name Callback Value}

theorem Promise.Meets.mono (h : promise.Meets contract name)
    (hidle : contract.idle name → contract'.idle name)
    (hfollows : ∀ on reaction, contract.follows name on reaction →
      contract'.follows name on reaction)
    (hadopts : ∀ other, contract.adopts name other → contract'.adopts name other)
    (hends : ∀ other outcome, contract.ends other outcome → contract'.ends other outcome) :
    promise.Meets contract' name := by
  cases promise with
  | pending => exact hidle h
  | waits on reaction => exact hfollows on reaction h
  | queued on reaction outcome => exact ⟨hfollows on reaction h.1, hends on outcome h.2⟩
  | adopts other => exact hadopts other h
  | settled outcome => exact hends name outcome h

variable [DecidableEq Name]

theorem Promise.Meets.notify (h : promise.Meets contract other)
    (hends : contract.ends name outcome) :
    (promise.notify name outcome).Meets contract other := by
  cases promise with
  | waits on reaction =>
      rw [Promise.notify]
      split_ifs with he
      · exact ⟨h, he ▸ hends⟩
      · exact h
  | pending | queued on reaction outcome | adopts other | settled outcome => exact h

-- Nothing is asked of the promise that settles.
theorem keeps_settle (h : ∀ other, other ≠ name → (promises other).Meets contract other)
    (hends : contract.ends name outcome) : Keeps contract (promises.settle name outcome) := by
  intro other
  rw [Promises.settle]
  split_ifs with he
  · exact he ▸ hends
  · exact (h other he).notify hends

namespace Keeps

theorem settle (h : Keeps contract promises) (hends : contract.ends name outcome) :
    Keeps contract (promises.settle name outcome) :=
  keeps_settle (fun other _ => h other) hends

theorem update (h : Keeps contract promises) (hmeets : promise.Meets contract name) :
    Keeps contract (Function.update promises name promise) := by
  intro other
  by_cases he : other = name
  · subst he
    rw [Function.update_self]
    exact hmeets
  · rw [Function.update_of_ne he]
    exact h other

theorem follow (h : Keeps contract promises) (hfollows : contract.follows name on reaction) :
    Keeps contract (promises.follow name on reaction) := by
  refine h.update ?_
  have hon := h on
  cases hcell : promises on with
  | settled outcome =>
      rw [hcell] at hon
      exact ⟨hfollows, hon⟩
  | pending | waits on reaction | queued on reaction outcome | adopts other => exact hfollows

theorem resolve (h : Keeps contract promises)
    (hends : ∀ outcome, completion = outcome.completion → contract.ends name outcome)
    (hadopts : ∀ other, completion = .promise other → contract.adopts name other) :
    Keeps contract (promises.resolve name completion) := by
  cases completion with
  | normal value => exact h.settle (hends (.fulfilled value) rfl)
  | throw reason => exact h.settle (hends (.rejected reason) rfl)
  | promise other => exact h.update (hadopts other rfl)

end Keeps

end Contracts

end Js
