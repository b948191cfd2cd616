import GameContent.Transition.Trigger
import GameContent.Value.Basic

/-!
# `Transition.Basic` — the attributes of a transition

A transition is fired by a trigger and may take several days. While it is under way its redirects
offer other ways out, one for each trigger.
-/

namespace GameContent

/-- Another way out of a transition that is under way. -/
structure Redirect where
  /-- The event that fires it. -/
  trigger : Trigger
  /-- The id of the state it leads to. -/
  target : String
deriving DecidableEq, Repr

/-- The attributes of a transition. -/
structure Transition where
  /-- The event that fires it. -/
  trigger : Trigger
  /-- The number of days that it was declared to take. -/
  days : Option Nat
  /-- What it spawns. -/
  spawn : Option Value
  /-- The action that goes with it. -/
  action : Option String
  /-- The template of the description while it is under way. -/
  description : Option String
  /-- The other ways out while it is under way. -/
  redirects : List Redirect

namespace Transition

/-- A transition with nothing but its trigger. -/
def on (trigger : Trigger) : Transition := ⟨trigger, none, none, none, none, []⟩

/-- The number of days, if the transition is under way for more than one. -/
def delay (t : Transition) : Option Nat :=
  t.days.filter (1 < ·)

/-- Redirects with one more. A redirect for the same trigger is replaced where it is. -/
def addRedirect (r : Redirect) : List Redirect → List Redirect
  | [] => [r]
  | s :: ss => if s.trigger = r.trigger then r :: ss else s :: addRedirect r ss

/-- Adds a redirect. -/
def redirect (t : Transition) (trigger : Trigger) (target : String) : Transition :=
  { t with redirects := addRedirect ⟨trigger, target⟩ t.redirects }

theorem delay_eq_some_iff {t : Transition} {n : Nat} :
    t.delay = some n ↔ t.days = some n ∧ 1 < n := by
  simp [delay, Option.filter_eq_some_iff]

end Transition
end GameContent
