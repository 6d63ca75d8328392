/-
# A ledger of links

A transport does not say which of the links it opened a command is sent on, or whether that link is still
open.  `Transport.audited` is any transport with a ledger beside it: links are numbered as they are
opened, and whatever is done is entered under the number of the latest.  What the transport does, and
when it fails, stays as it was.

A ledger is `Consistent` when every link in it has been opened once, has been closed once unless it is
the one that is held, and nothing was ever entered for a link before it was opened or after it was
closed.  Three moves keep a ledger so: to open a link where none is held, to use the one that is held,
and to close it.
-/
import GroundStation.Link.Transport

namespace GroundStation

/-- What is done with a link, under its number. -/
inductive LinkEvent where
  | opened (link : Nat)
  /-- A write, a query or a read. -/
  | used (link : Nat)
  | closed (link : Nat)
  deriving DecidableEq, Repr

/-- The links opened so far, numbered from one, and what was done with them. -/
structure Ledger where
  links : Nat
  /-- Latest event first. -/
  events : List LinkEvent
  deriving DecidableEq, Repr

namespace Ledger

/-- A ledger without entries. -/
def blank : Ledger := ⟨0, []⟩

/-- The ledger after one more link has been opened. -/
def afterOpen (l : Ledger) : Ledger := ⟨l.links + 1, .opened (l.links + 1) :: l.events⟩

/-- The ledger after the latest link has been used. -/
def afterUse (l : Ledger) : Ledger := ⟨l.links, .used l.links :: l.events⟩

/-- The ledger after the latest link has been closed. -/
def afterClose (l : Ledger) : Ledger := ⟨l.links, .closed l.links :: l.events⟩

/-- A link that has been opened and is not the one that is held. -/
def Past (held : Bool) (l : Ledger) (n : Nat) : Prop :=
  (1 ≤ n ∧ n ≤ l.links) ∧ ¬(held = true ∧ n = l.links)

instance (held : Bool) (l : Ledger) (n : Nat) : Decidable (l.Past held n) := by
  unfold Past
  infer_instance

/-- Links are opened once, used while they are open, and closed once.  `held` tells whether the latest
one is still open. -/
structure Consistent (held : Bool) (l : Ledger) : Prop where
  opened : ∀ n, l.events.count (.opened n) = if 1 ≤ n ∧ n ≤ l.links then 1 else 0
  closed : ∀ n, l.events.count (.closed n) = if l.Past held n then 1 else 0
  used : ∀ n later earlier, l.events = later ++ .used n :: earlier →
    .opened n ∈ earlier ∧ .closed n ∉ earlier
  some_link : held = true → 1 ≤ l.links

namespace Consistent

theorem blank : Consistent false blank where
  opened := fun n => by
    rw [if_neg (by simp only [Ledger.blank]; omega)]
    rfl
  closed := fun n => by
    rw [if_neg (by simp only [Past, Ledger.blank]; omega)]
    rfl
  used := fun n later earlier h => by
    cases later <;> cases h
  some_link := nofun

theorem le_of_opened {held : Bool} {l : Ledger} (h : Consistent held l) {n : Nat}
    (hn : .opened n ∈ l.events) : 1 ≤ n ∧ n ≤ l.links := by
  by_cases hle : 1 ≤ n ∧ n ≤ l.links
  · exact hle
  · have hpos := List.count_pos_iff.mpr hn
    rw [h.opened, if_neg hle] at hpos
    exact absurd hpos (Nat.lt_irrefl 0)

theorem opened_of_le {held : Bool} {l : Ledger} (h : Consistent held l) {n : Nat} (hn : 1 ≤ n)
    (hle : n ≤ l.links) : .opened n ∈ l.events := by
  refine List.count_pos_iff.mp ?_
  rw [h.opened, if_pos ⟨hn, hle⟩]
  exact Nat.one_pos

/-- An entry that is no use leaves the earlier uses as they were. -/
theorem used_cons {held : Bool} {l : Ledger} (h : Consistent held l) {e : LinkEvent}
    (he : ∀ n, e ≠ .used n) :
    ∀ n later earlier, e :: l.events = later ++ .used n :: earlier →
      .opened n ∈ earlier ∧ .closed n ∉ earlier := by
  intro n later earlier heq
  cases later with
  | nil => exact absurd (List.cons.inj heq).1 (he n)
  | cons x rest => exact h.used n rest earlier (List.cons.inj heq).2

/-- To open a link where none is held. -/
theorem afterOpen {l : Ledger} (h : Consistent false l) : Consistent true l.afterOpen where
  opened := fun n => by
    rw [Ledger.afterOpen, List.count_cons, h.opened]
    by_cases hn : n = l.links + 1
    · subst hn
      simp
    · have hne : ¬LinkEvent.opened (l.links + 1) = .opened n := fun heq =>
        hn (LinkEvent.opened.inj heq).symm
      simp only [beq_iff_eq, if_neg hne, Nat.add_zero]
      congr 1
      exact propext ⟨fun ⟨h1, h2⟩ => ⟨h1, by omega⟩, fun ⟨h1, h2⟩ => ⟨h1, by omega⟩⟩
  closed := fun n => by
    have hne : ¬LinkEvent.opened (l.links + 1) = .closed n := nofun
    rw [Ledger.afterOpen, List.count_cons, h.closed]
    simp only [beq_iff_eq, if_neg hne, Nat.add_zero]
    congr 1
    simp only [Past, eq_iff_iff, reduceCtorEq, false_and, not_false_eq_true, and_true, true_and]
    omega
  used := h.used_cons nofun
  some_link := fun _ => Nat.le_add_left 1 l.links

/-- To use the link that is held. -/
theorem afterUse {l : Ledger} (h : Consistent true l) : Consistent true l.afterUse where
  opened := fun n => by
    refine (List.count_cons_of_ne ?_).trans (h.opened n)
    exact nofun
  closed := fun n => by
    refine (List.count_cons_of_ne ?_).trans (h.closed n)
    exact nofun
  used := fun n later earlier heq => by
    cases later with
    | cons x rest => exact h.used n rest earlier (List.cons.inj heq).2
    | nil =>
        obtain ⟨hn, rfl⟩ := List.cons.inj heq
        cases hn
        constructor
        · exact h.opened_of_le (h.some_link rfl) (Nat.le_refl _)
        · refine List.count_eq_zero.mp ?_
          rw [h.closed, if_neg]
          exact fun hpast => hpast.2 ⟨rfl, rfl⟩
  some_link := h.some_link

/-- To close the link that is held. -/
theorem afterClose {l : Ledger} (h : Consistent true l) : Consistent false l.afterClose where
  opened := fun n => by
    refine (List.count_cons_of_ne ?_).trans (h.opened n)
    exact nofun
  closed := fun n => by
    have hlink := h.some_link rfl
    rw [Ledger.afterClose, List.count_cons, h.closed]
    by_cases hn : n = l.links
    · subst hn
      simp [Past, hlink]
    · have hne : ¬LinkEvent.closed l.links = .closed n := fun heq => hn (LinkEvent.closed.inj heq).symm
      simp [Past, hne, hn]
  used := h.used_cons nofun
  some_link := nofun

end Consistent

end Ledger

/-- A transport with a ledger of its links beside the state of the devices. -/
def Transport.audited {δ : Type} (t : Transport δ) : Transport (δ × Ledger) where
  connect := fun c s =>
    match t.connect c s.1 with
    | (.ok (), d) => (.ok (), d, s.2.afterOpen)
    | (.error e, d) => (.error e, d, s.2)
  write := fun c command s => ((t.write c command s.1).1, (t.write c command s.1).2, s.2.afterUse)
  query := fun c command s => ((t.query c command s.1).1, (t.query c command s.1).2, s.2.afterUse)
  readAvailable := fun c s => ((t.readAvailable c s.1).1, (t.readAvailable c s.1).2, s.2.afterUse)
  close := fun c s => (t.close c s.1, s.2.afterClose)

end GroundStation
