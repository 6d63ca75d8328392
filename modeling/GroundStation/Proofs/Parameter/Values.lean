/-
# The values of a type

A type of values is a way to read texts, and here it is told by what may come of that.  `Admits` says which
JSON values are values of a type, without a text: an integer of 64 bits, a number in binary floating point, a
truth value, a text with nothing to trim, or an even number of small hexadecimal digits.  Whatever text is
read, what comes of it is a value of the type (`admits_of_parse?`).

A parameter that can be read has a type, since it does not compile without one.  So its replies are values of
that type, or errors, and there is never nothing (`parseReply_eq_ok_iff`).
-/
import GroundStation.Proofs.Parameter.HexText
import GroundStation.Proofs.Parameter.WellFormed
import GroundStation.Proofs.Text.Blank

namespace GroundStation

/-- An integer that is read has 64 bits. -/
theorem Integer.bounds_of_int64? {t : Text} {n : Int} (h : int64? t = some n) : -2 ^ 63 ≤ n ∧ n < 2 ^ 63 := by
  unfold int64? signed? at h
  split at h
  all_goals
    obtain ⟨_, hread, rfl⟩ := Option.map_eq_some_iff.mp h
    obtain ⟨m, hm, ⟨⟩⟩ := Option.bind_eq_some_iff.mp hread
    have hbound := of_decide_eq_true (Option.filter_eq_some_iff.mp hm).2
    omega

/-- Bytes are written with an even number of small digits. -/
theorem Hex.small_of_encode (bytes : Bytes) :
    (encode bytes).length % 2 = 0 ∧ ∀ c ∈ encode bytes, ∃ n < 16, c = digit n := by
  refine ⟨(exists_decode?_iff.mp ⟨bytes, decode?_encode bytes⟩).1, fun c hc => ?_⟩
  obtain ⟨b, -, hdigit⟩ := List.mem_flatMap.mp hc
  have hb := b.toNat_lt
  rcases List.mem_cons.mp hdigit with rfl | hlow
  · exact ⟨b.toNat / 16, by omega, rfl⟩
  · exact ⟨b.toNat % 16, by omega, List.mem_singleton.mp hlow⟩

namespace ValueType

/-- The values of a type. -/
inductive Admits : ValueType → Json → Prop
  | int {n : Int} : -2 ^ 63 ≤ n → n < 2 ^ 63 → Admits int (.int n)
  | float (x : Finite64) : Admits float (.float x)
  | bool (b : Bool) : Admits bool (.bool b)
  | str {t : Text} : Text.trim t = t → Admits str (.str t)
  | hex {t : Text} : t.length % 2 = 0 → (∀ c ∈ t, ∃ n < 16, c = Hex.digit n) → Admits hex (.str t)

/-- Whatever text is read, what it denotes is a value of the type. -/
theorem admits_of_parse? {type : ValueType} {t : Text} {v : Json} (h : type.parse? t = some v) :
    type.Admits v := by
  unfold parse? at h
  cases type with
  | int =>
    obtain ⟨n, hn, rfl⟩ := Option.map_eq_some_iff.mp h
    obtain ⟨hlow, hhigh⟩ := Integer.bounds_of_int64? hn
    exact .int hlow hhigh
  | float =>
    dsimp only at h
    split at h
    · next x _ =>
      cases h
      exact .float x
    · cases h
  | bool =>
    obtain ⟨b, -, rfl⟩ := Option.map_eq_some_iff.mp h
    exact .bool b
  | str =>
    cases h
    exact .str (Text.trim_trim t)
  | hex =>
    obtain ⟨s, hs, rfl⟩ := Option.map_eq_some_iff.mp h
    obtain ⟨-, bytes, -, rfl⟩ := hexDigits?_eq_some_iff.mp hs
    obtain ⟨heven, hdigits⟩ := Hex.small_of_encode bytes
    exact .hex heven hdigits

end ValueType

namespace Parameter

variable {p : Parameter} {type : ValueType}

/-- A reply to a parameter of a type denotes a value of it, if it denotes anything. -/
theorem parseReply_eq_ok_iff (typed : p.valueType = some type) {reply : Text} {value : Option Json} :
    p.parseReply reply = .ok value ↔ ∃ v, value = some v ∧ type.parse? reply = some v := by
  rw [parseReply, typed]
  dsimp only
  cases type.parse? reply with
  | none => simp
  | some v => simp [eq_comm]

/-- What compiling says of a getter: a type of its replies, and a query that brings them. -/
theorem getter_of_compile {name : Text} {d : ParameterDeclaration} {steps : List Step}
    (h : compile name d = .ok p) (getter : p.getter = some steps) :
    steps.any Step.isQuery = true ∧ ∃ type, p.valueType = some type := by
  obtain ⟨-, type, compiled, setter, -, hgetter, -, rfl⟩ := compile_eq_ok_iff.mp h
  dsimp only at getter
  subst getter
  have hrel := compileOptional_eq_ok_iff.mp hgetter
  generalize d.get = declared at hrel
  cases hrel with
  | some hsteps =>
    obtain ⟨-, -, hquery, htype⟩ := (compileGetter_eq_ok_iff _).mp hsteps
    exact ⟨hquery, Option.ne_none_iff_exists'.mp htype⟩

end Parameter

end GroundStation
