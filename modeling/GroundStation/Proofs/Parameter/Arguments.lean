/-
# What is wrong with arguments

The arguments of a write are checked by their number and, one by one, by the types that are declared for
them.  The check fails exactly if there is something wrong with them, and says what (`ArgumentFault`);
where several arguments are not of their types it names one of them.
-/
import GroundStation.Parameter.Compile

namespace GroundStation

namespace Parameter

/-- What may be wrong with the arguments of a write, and what is said of it. -/
inductive ArgumentFault (p : Parameter) (w : Setter) (args : List Text) : CommandError → Prop
  | count : args.length ≠ w.signature.arity →
      ArgumentFault p w args (.wrongArgumentCount p.name w.signature.arity args.length)
  | type {index : Nat} {arg : Text} {type : ValueType} : args[index]? = some arg →
      w.argTypes[index]? = some (some type) → type.parse? arg = none →
      ArgumentFault p w args (.invalidArgument p.name index arg type.name)

/-- One step of the check of types: the first argument is not of its type, or its value is kept and the
rest is checked. -/
theorem typedFrom_cons (id : Text) (index : Nat) (arg : Text) (args : List Text)
    (type : Option ValueType) (types : List (Option ValueType)) :
    (∃ t, type = some t ∧ t.parse? arg = none ∧
      typedFrom id index (arg :: args) (type :: types) =
        .error (.invalidArgument id index arg t.name)) ∨
    (∀ t, type = some t → t.parse? arg ≠ none) ∧
      typedFrom id index (arg :: args) (type :: types) =
        (typedFrom id (index + 1) args types).map ((type.bind fun t => t.parse? arg) :: ·) := by
  cases type with
  | none =>
      refine .inr ⟨nofun, ?_⟩
      rw [typedFrom]
      cases typedFrom id (index + 1) args types <;> rfl
  | some t =>
      cases hparse : t.parse? arg with
      | none =>
          refine .inl ⟨t, rfl, hparse, ?_⟩
          simp only [typedFrom, hparse]
          rfl
      | some value =>
          refine .inr ⟨?_, ?_⟩
          · intro t' ht'
            cases ht'
            rw [hparse]
            exact nofun
          · simp only [typedFrom, hparse, Option.bind_some]
            cases typedFrom id (index + 1) args types <;> rfl

/-- The check of types fails for an argument that is not of its type. -/
theorem typedFrom_eq_error {id : Text} {e : CommandError} {args : List Text} :
    ∀ {index : Nat} {types : List (Option ValueType)}, typedFrom id index args types = .error e →
      ∃ k arg type, args[k]? = some arg ∧ types[k]? = some (some type) ∧ type.parse? arg = none ∧
        e = .invalidArgument id (index + k) arg type.name := by
  induction args with
  | nil =>
      intro index types h
      cases h
  | cons arg args ih =>
      intro index types h
      cases types with
      | nil => cases h
      | cons type types =>
          rcases typedFrom_cons id index arg args type types with
            ⟨t, rfl, hparse, heq⟩ | ⟨-, heq⟩
          · rw [heq] at h
            cases h
            exact ⟨0, arg, t, rfl, rfl, hparse, rfl⟩
          · rw [heq] at h
            cases hrest : typedFrom id (index + 1) args types with
            | ok values =>
                rw [hrest] at h
                cases h
            | error e' =>
                rw [hrest] at h
                cases h
                obtain ⟨k, a, t, harg, htype, hparse, rfl⟩ := ih hrest
                refine ⟨k + 1, a, t, harg, htype, hparse, ?_⟩
                rw [Nat.add_right_comm, Nat.add_assoc]

/-- If the check of types does not fail, every argument is of its type. -/
theorem parse?_of_typedFrom {id : Text} {type : ValueType} {arg : Text} {args : List Text} :
    ∀ {index k : Nat} {types : List (Option ValueType)} {values : List (Option Json)},
      typedFrom id index args types = .ok values → args[k]? = some arg →
      types[k]? = some (some type) → type.parse? arg ≠ none := by
  induction args with
  | nil =>
      intro index k types values _ harg
      cases harg
  | cons first args ih =>
      intro index k types values h harg htype
      cases types with
      | nil => cases htype
      | cons firstType types =>
          rcases typedFrom_cons id index first args firstType types with
            ⟨t, -, -, heq⟩ | ⟨hparses, heq⟩
          · rw [heq] at h
            cases h
          · rw [heq] at h
            cases k with
            | zero =>
                cases harg
                cases htype
                exact hparses type rfl
            | succ k =>
                cases hrest : typedFrom id (index + 1) args types with
                | error e =>
                    rw [hrest] at h
                    cases h
                | ok rest => exact ih hrest harg htype

variable {p : Parameter} {w : Setter} {args : List Text} {e : CommandError}

/-- What the check says is wrong with the arguments. -/
theorem argumentFault_of_checkArgs (h : p.checkArgs w args = .error e) : p.ArgumentFault w args e := by
  unfold checkArgs at h
  split at h
  · next hcount =>
    cases h
    exact .count hcount
  · obtain ⟨k, arg, type, harg, htype, hparse, rfl⟩ := typedFrom_eq_error h
    rw [Nat.zero_add]
    exact .type harg htype hparse

/-- If the check does not fail, nothing is wrong with the arguments. -/
theorem not_argumentFault_of_checkArgs {values : List (Option Json)}
    (h : p.checkArgs w args = .ok values) : ¬p.ArgumentFault w args e := by
  unfold checkArgs at h
  split at h
  · cases h
  · next hcount =>
    intro hfault
    cases hfault with
    | count hne => exact hcount hne
    | type harg htype hparse => exact parse?_of_typedFrom h harg htype hparse

end Parameter

end GroundStation
