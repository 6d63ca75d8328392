/-
# What no operation changes of an instrument

Requests and rounds of acquisition move the memory of an instrument, the state of its link and its
worker.  What it was configured to be stays: configuration, compiled parameters and transport are those
it was put together with.  `SameMake i j` says this of two states of an instrument, and every operation
yields a state of the same make.

So whatever is read off an instrument by its make alone, its provider and the entries it announces above
all, holds of it for good.
-/
import GroundStation.Instrument.Acquisition

namespace GroundStation

namespace Instrument

variable {δ : Type}

/-- `j` is a state of the instrument that `i` is a state of. -/
structure SameMake (i j : Instrument δ) : Prop where
  config : j.config = i.config
  parameters : j.parameters = i.parameters
  transport : j.transport = i.transport

namespace SameMake

theorem refl (i : Instrument δ) : SameMake i i := ⟨rfl, rfl, rfl⟩

theorem trans {i j k : Instrument δ} (h : SameMake i j) (h' : SameMake j k) : SameMake i k :=
  ⟨h'.config.trans h.config, h'.parameters.trans h.parameters, h'.transport.trans h.transport⟩

theorem provider {i j : Instrument δ} (h : SameMake i j) : j.provider = i.provider :=
  congrArg InstrumentConfig.provider h.config

end SameMake

/-! ## Exchanges

To read or write a parameter may change what is remembered, and nothing else of an instrument. -/

/-- The instrument with another memory. -/
def withMemory (i : Instrument δ) (memory : Memory) : Instrument δ := { i with memory }

theorem sameMake_withMemory (i : Instrument δ) (m : Memory) : SameMake i (i.withMemory m) :=
  ⟨rfl, rfl, rfl⟩

theorem remember_eq (i : Instrument δ) (p : Parameter) (value : Option Json) :
    ∃ m, i.remember p value = i.withMemory m := by
  cases value with
  | none => exact ⟨i.memory, rfl⟩
  | some v => exact ⟨_, rfl⟩

theorem settle_eq (i : Instrument δ) (p : Parameter) (d : δ)
    (outcome : Except CommandError (Option Json)) : ∃ m, (i.settle p d outcome).2.1 = i.withMemory m := by
  cases outcome with
  | ok value => exact remember_eq i p value
  | error e => exact ⟨i.memory, rfl⟩

theorem read_eq (i : Instrument δ) (p : Parameter) (args : List Text) (d : δ) :
    ∃ m, (i.read p args d).2.1 = i.withMemory m := by
  unfold read
  split
  · exact ⟨i.memory, rfl⟩
  · split
    · split
      · exact ⟨i.memory, rfl⟩
      · exact settle_eq i p _ _
    · exact ⟨i.memory, rfl⟩

theorem write_eq (i : Instrument δ) (p : Parameter) (args : List Text) (d : δ) :
    ∃ m, (i.write p args d).2.1 = i.withMemory m := by
  unfold write
  split
  · exact ⟨i.memory, rfl⟩
  · split
    · exact ⟨i.memory, rfl⟩
    · split
      · exact ⟨i.memory, rfl⟩
      · exact settle_eq i p _ _
      · exact settle_eq i p _ _

theorem exchange_eq (i : Instrument δ) (p : Parameter) (r : Request) (d : δ) :
    ∃ m, (if r.kind = .get then i.read p r.args d else i.write p r.args d).2.1 = i.withMemory m := by
  split
  · exact read_eq i p r.args d
  · exact write_eq i p r.args d

theorem absorb_eq (fields : List (Text × Text)) (i : Instrument δ) :
    ∃ m, (i.absorb fields).2 = i.withMemory m := by
  induction fields generalizing i with
  | nil => exact ⟨i.memory, rfl⟩
  | cons field rest ih =>
      obtain ⟨key, text⟩ := field
      rw [absorb]
      split
      · exact ih i
      · next p value _ =>
        obtain ⟨m, hm⟩ := remember_eq i p (some value)
        obtain ⟨m', hm'⟩ := ih (i.withMemory m)
        refine ⟨m', ?_⟩
        rw [hm]
        exact hm'

/-! ## Requests -/

theorem sameMake_withoutLink (i : Instrument δ) (state : ConnectionState) :
    SameMake i (i.withoutLink state) := ⟨rfl, rfl, rfl⟩

theorem sameMake_degrade (i : Instrument δ) (d : δ) : SameMake i (i.degrade d).1 :=
  sameMake_withoutLink i _

theorem sameMake_connect (i : Instrument δ) (args : List Text) (d : δ) :
    SameMake i (i.connect args d).2.1 := by
  unfold connect
  split
  · exact .refl i
  · split
    · exact .refl i
    · dsimp only
      split
      · exact ⟨rfl, rfl, rfl⟩
      · split <;> exact ⟨rfl, rfl, rfl⟩

theorem sameMake_disconnect (i : Instrument δ) (args : List Text) (d : δ) :
    SameMake i (i.disconnect args d).1 := by
  unfold disconnect
  split
  · exact sameMake_withoutLink i _
  · exact .refl i

theorem sameMake_exchange (i : Instrument δ) (p : Parameter) (r : Request) (d : δ) :
    SameMake i (if r.kind = .get then i.read p r.args d else i.write p r.args d).2.1 := by
  obtain ⟨m, hm⟩ := exchange_eq i p r d
  rw [hm]
  exact sameMake_withMemory i m

theorem sameMake_command (i : Instrument δ) (r : Request) (d : δ) :
    SameMake i (i.command r d).2.1 := by
  unfold command
  split
  · exact .refl i
  · next p _ =>
    split
    · have h := sameMake_exchange i p r d
      split
      · next heq => rw [heq] at h; exact h
      · next heq => rw [heq] at h; exact h
      · next heq => rw [heq] at h; exact h.trans (sameMake_degrade _ _)
    · exact .refl i

theorem sameMake_perform (i : Instrument δ) (r : Request) (d : δ) :
    SameMake i (i.perform r d).2.1 := by
  unfold perform
  split
  · split
    · exact sameMake_connect i r.args d
    · split
      · exact sameMake_disconnect i r.args d
      · exact sameMake_command i r d
  · exact sameMake_command i r d
  · exact .refl i

theorem sameMake_execute (i : Instrument δ) (r : Request) (d : δ) :
    SameMake i (i.execute r d).2.1 := by
  unfold execute
  split
  · exact sameMake_perform i r d
  · exact .refl i

/-! ## Acquisition -/

theorem sameMake_pollFrom (d : δ) (names : List Text) (i : Instrument δ) :
    SameMake i (i.pollFrom names d).2.1 := by
  induction names generalizing i d with
  | nil => exact .refl i
  | cons name rest ih =>
      rw [pollFrom]
      split
      · exact ih d i
      · next p _ =>
        have h : SameMake i (i.read p [] d).2.1 := by
          obtain ⟨m, hm⟩ := read_eq i p [] d
          rw [hm]
          exact sameMake_withMemory i m
        split
        · next heq => rw [heq] at h; exact h.trans (ih _ _)
        · next heq => rw [heq] at h; exact h.trans (sameMake_degrade _ _)
        · next heq => rw [heq] at h; exact h.trans (ih _ _)

theorem sameMake_drain (i : Instrument δ) (a : Record.Accumulator) (d : δ) :
    SameMake i (i.drain a d).2.1 := by
  unfold drain
  split
  · next bytes d _ =>
    have h : SameMake i { i with worker := some (a.push bytes).2 } := ⟨rfl, rfl, rfl⟩
    obtain ⟨m, hm⟩ := absorb_eq ((a.push bytes).1.flatMap Record.fields)
      { i with worker := some (a.push bytes).2 }
    dsimp only
    rw [hm]
    exact h.trans (sameMake_withMemory _ m)
  · split
    · exact sameMake_degrade i _
    · exact .refl i

end Instrument

end GroundStation
