/-
# A ledger for every provider

Several instruments share one world of devices, and what one of them does moves the state that all of them
act on.  Where that state holds a ledger for every provider, and each transport enters what it does with
a link in the ledger of the instrument's provider and in no other, it keeps books.  Then an instrument that
uses its link with discipline keeps its own ledger consistent and leaves all others alone
(`Usage.consistent`, `Usage.others`).

No transport of this library keeps books by itself, and none has to: any registry can be given books beside
its devices, and its transports then do what they did (`Registry.keepsBooks_booked`).
-/
import GroundStation.Proofs.Instrument.Usage
import Mathlib.Logic.Function.Basic

namespace GroundStation

variable {δ : Type}

/-! ## Transports that keep books -/

/-- What a transport does with the link of an instrument is entered in the ledger of its provider, and in no
other. -/
structure Transport.KeepsBooks (t : Transport δ) (c : InstrumentConfig) (books : Text → δ → Ledger) :
    Prop where
  opened : ∀ {d d'}, t.connect c d = (.ok (), d') →
    books c.provider d' = (books c.provider d).afterOpen
  refused : ∀ {d d' e}, t.connect c d = (.error e, d') → books c.provider d' = books c.provider d
  wrote : ∀ command d, books c.provider (t.write c command d).2 = (books c.provider d).afterUse
  queried : ∀ command d, books c.provider (t.query c command d).2 = (books c.provider d).afterUse
  read : ∀ d, books c.provider (t.readAvailable c d).2 = (books c.provider d).afterUse
  closed : ∀ d, books c.provider (t.close c d) = (books c.provider d).afterClose
  others : ∀ {p}, p ≠ c.provider → ∀ d,
    books p (t.connect c d).2 = books p d ∧
    (∀ command, books p (t.write c command d).2 = books p d ∧
      books p (t.query c command d).2 = books p d) ∧
    books p (t.readAvailable c d).2 = books p d ∧ books p (t.close c d) = books p d

/-- All transports of a registry keep the same books. -/
def Registry.KeepsBooks (registry : Registry δ) (books : Text → δ → Ledger) : Prop :=
  ∀ c t, registry.resolve c = .ok t → t.KeepsBooks c books

namespace Ledger

/-- How many links have been opened. -/
def opens (l : Ledger) : Nat := l.events.countP fun e => e matches .opened _

/-- How many times a link has been closed. -/
def closes (l : Ledger) : Nat := l.events.countP fun e => e matches .closed _

theorem opens_afterOpen (l : Ledger) : l.afterOpen.opens = l.opens + 1 := List.countP_cons_of_pos rfl

theorem closes_afterOpen (l : Ledger) : l.afterOpen.closes = l.closes := rfl

theorem opens_afterClose (l : Ledger) : l.afterClose.opens = l.opens := rfl

theorem closes_afterClose (l : Ledger) : l.afterClose.closes = l.closes + 1 := List.countP_cons_of_pos rfl

end Ledger

namespace Transport.Usage

variable {t : Transport δ} {c : InstrumentConfig} {books : Text → δ → Ledger} {held held' : Bool}
  {d d' : δ} {commands : List Text}

/-- Disciplined use of a link keeps the ledger consistent. -/
theorem consistent (usage : t.Usage c held d commands held' d') (keeps : t.KeepsBooks c books) :
    Ledger.Consistent held (books c.provider d) → Ledger.Consistent held' (books c.provider d') := by
  induction usage with
  | idle => exact id
  | opened hconnect _ ih => exact fun h => ih (keeps.opened hconnect ▸ h.afterOpen)
  | refused hconnect _ ih => exact fun h => ih (keeps.refused hconnect ▸ h)
  | wrote command _ ih => exact fun h => ih (keeps.wrote command _ ▸ h.afterUse)
  | queried command _ ih => exact fun h => ih (keeps.queried command _ ▸ h.afterUse)
  | read _ ih => exact fun h => ih (keeps.read _ ▸ h.afterUse)
  | closed _ ih => exact fun h => ih (keeps.closed _ ▸ h.afterClose)

/-- It leaves the ledgers of all other providers alone. -/
theorem others (usage : t.Usage c held d commands held' d') (keeps : t.KeepsBooks c books) {p : Text}
    (ne : p ≠ c.provider) : books p d' = books p d := by
  have other := @KeepsBooks.others δ t c books keeps p ne
  induction usage with
  | idle => rfl
  | @opened d _ _ _ _ hconnect _ ih =>
    have connected := (other d).1
    rw [hconnect] at connected
    exact ih.trans connected
  | @refused d _ _ _ _ _ hconnect _ ih =>
    have connected := (other d).1
    rw [hconnect] at connected
    exact ih.trans connected
  | wrote command _ ih => exact ih.trans ((other _).2.1 command).1
  | queried command _ ih => exact ih.trans ((other _).2.1 command).2
  | read _ ih => exact ih.trans (other _).2.2.1
  | closed _ ih => exact ih.trans (other _).2.2.2

/-- Of the links opened meanwhile as many are closed, but for the one that is held. -/
theorem balanced (usage : t.Usage c held d commands held' d') (keeps : t.KeepsBooks c books) :
    (books c.provider d').opens + (books c.provider d).closes + held.toNat =
      (books c.provider d).opens + (books c.provider d').closes + held'.toNat := by
  induction usage with
  | idle => rfl
  | opened hconnect _ ih =>
    rw [keeps.opened hconnect, Ledger.opens_afterOpen, Ledger.closes_afterOpen] at ih
    simp only [Bool.toNat_true, Bool.toNat_false] at ih ⊢
    omega
  | refused hconnect _ ih =>
    rw [keeps.refused hconnect] at ih
    exact ih
  | wrote command _ ih =>
    rw [keeps.wrote command] at ih
    exact ih
  | queried command _ ih =>
    rw [keeps.queried command] at ih
    exact ih
  | read _ ih =>
    rw [keeps.read] at ih
    exact ih
  | closed _ ih =>
    rw [keeps.closed, Ledger.opens_afterClose, Ledger.closes_afterClose] at ih
    simp only [Bool.toNat_true, Bool.toNat_false] at ih ⊢
    omega

end Transport.Usage

/-- A link that is in a consistent ledger, none being held, has been opened once and closed once. -/
theorem Ledger.Consistent.closed_of_opened {l : Ledger} (h : l.Consistent false) {n : Nat}
    (hn : .opened n ∈ l.events) : l.events.count (.opened n) = 1 ∧ l.events.count (.closed n) = 1 := by
  have known := h.le_of_opened hn
  rw [h.opened, h.closed]
  exact ⟨if_pos known, if_pos ⟨known, nofun⟩⟩

/-! ## Books beside the devices -/

namespace Transport

/-- An outcome with the ledger of one provider, as an outcome with all the books. -/
def inBooks (c : InstrumentConfig) (books : Text → Ledger) (s : δ × Ledger) : δ × (Text → Ledger) :=
  (s.1, Function.update books c.provider s.2)

/-- A transport with books beside the state of the devices. -/
def booked (t : Transport δ) : Transport (δ × (Text → Ledger)) where
  connect := fun c s => (t.audited.connect c (s.1, s.2 c.provider)).map id (inBooks c s.2)
  write := fun c command s => (t.audited.write c command (s.1, s.2 c.provider)).map id (inBooks c s.2)
  query := fun c command s => (t.audited.query c command (s.1, s.2 c.provider)).map id (inBooks c s.2)
  readAvailable := fun c s => (t.audited.readAvailable c (s.1, s.2 c.provider)).map id (inBooks c s.2)
  close := fun c s => inBooks c s.2 (t.audited.close c (s.1, s.2 c.provider))

theorem keepsBooks_booked (t : Transport δ) (c : InstrumentConfig) :
    t.booked.KeepsBooks c fun p s => s.2 p where
  opened := by
    rintro ⟨d, books⟩ s' h
    simp only [booked, audited] at h
    rcases hconnect : t.connect c d with ⟨_ | _, d'⟩ <;> rw [hconnect] at h <;> cases h
    exact Function.update_self ..
  refused := by
    rintro ⟨d, books⟩ s' e h
    simp only [booked, audited] at h
    rcases hconnect : t.connect c d with ⟨_ | _, d'⟩ <;> rw [hconnect] at h <;> cases h
    exact Function.update_self ..
  wrote := fun _ _ => Function.update_self ..
  queried := fun _ _ => Function.update_self ..
  read := fun _ => Function.update_self ..
  closed := fun _ => Function.update_self ..
  others := fun ne _ => ⟨Function.update_of_ne ne .., fun _ =>
    ⟨Function.update_of_ne ne .., Function.update_of_ne ne ..⟩, Function.update_of_ne ne ..,
    Function.update_of_ne ne ..⟩

end Transport

theorem Keyed.get?_map {α β : Type} (f : α → β) (key : Text) (l : Keyed α) :
    Keyed.get? key (l.map fun x => (x.1, f x.2)) = (Keyed.get? key l).map f := by
  induction l with
  | nil => rfl
  | cons x rest ih =>
    rw [List.map_cons, Keyed.get?, Keyed.get?]
    split
    · rfl
    · exact ih

namespace Registry

/-- An entry of a registry with books. -/
def bookedEntry (e : RegistryEntry δ) : RegistryEntry (δ × (Text → Ledger)) :=
  ⟨e.required, e.transport.booked⟩

/-- A registry with books beside the devices. -/
def booked (registry : Registry δ) : Registry (δ × (Text → Ledger)) :=
  ⟨registry.entries.map fun x => (x.1, bookedEntry x.2)⟩

theorem resolve_booked (registry : Registry δ) (c : InstrumentConfig) :
    registry.booked.resolve c = (registry.resolve c).map Transport.booked := by
  have found : registry.booked.get? c.transport = (registry.get? c.transport).map bookedEntry :=
    Keyed.get?_map ..
  rw [resolve, resolve, found]
  cases registry.get? c.transport with
  | none => rfl
  | some entry =>
    dsimp only [Option.map_some, bookedEntry]
    cases entry.required.find? fun field => !c.hasField field <;> rfl

/-- Books can be kept whatever the transports are. -/
theorem keepsBooks_booked (registry : Registry δ) : registry.booked.KeepsBooks fun p s => s.2 p := by
  intro c t h
  rw [resolve_booked] at h
  cases hresolve : registry.resolve c with
  | error e =>
    rw [hresolve] at h
    cases h
  | ok known =>
    rw [hresolve] at h
    cases h
    exact known.keepsBooks_booked c

end Registry

end GroundStation
