/-!
# `Transition.Trigger` — the events that fire transitions

The engine knows six triggers by name; every other name is a custom trigger. Reading a name never
gives a custom trigger with the name of a known one, but such a trigger exists and differs from it.
-/

namespace GameContent

/-- The event that fires a transition. -/
inductive Trigger where
  /-- The thing is smashed. -/
  | smash
  /-- The thing is slashed. -/
  | slash
  /-- The thing is watered. -/
  | water
  /-- The thing is used. -/
  | use
  /-- A day begins. -/
  | newDay
  /-- The thing is made to grow. -/
  | growth
  /-- An event of the given name. -/
  | custom (name : String)
deriving DecidableEq, Repr

namespace Trigger

/-- The name of a trigger. -/
def name : Trigger → String
  | .smash => "smash"
  | .slash => "slash"
  | .water => "water"
  | .use => "use"
  | .newDay => "newDay"
  | .growth => "growth"
  | .custom name => name

/-- The triggers that the engine knows. -/
def known : List Trigger :=
  [.smash, .slash, .water, .use, .newDay, .growth]

/-- The trigger with a name. -/
def ofName (s : String) : Trigger :=
  (known.find? fun t => t.name = s).getD (.custom s)

@[simp] theorem name_ofName (s : String) : (ofName s).name = s := by
  unfold ofName
  cases h : known.find? fun t => t.name = s with
  | none => rfl
  | some t => simpa using List.find?_some h

end Trigger
end GameContent
